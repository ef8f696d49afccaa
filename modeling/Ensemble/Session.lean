import Ensemble.Text.Decimal

/-! # Session states

The states a session reports: disconnected, connected, failed authentication, connected for
reading only, authenticated by SASL, and expired. Each has a code, and a state shows as
`NAME[code]`. Three of them are connected: connected, read-only and SASL-authenticated.
-/

namespace Ensemble

/-- The state of a session. -/
inductive SessionState where
  | disconnected
  | syncConnected
  | authFailed
  | connectedReadOnly
  | saslAuthenticated
  | expired
  deriving DecidableEq, Repr

namespace SessionState

/-- The code of a state. -/
def code : SessionState → Int32
  | .disconnected => 0
  | .syncConnected => 3
  | .authFailed => 4
  | .connectedReadOnly => 5
  | .saslAuthenticated => 6
  | .expired => -122

/-- The name of a state. -/
def name : SessionState → String
  | .disconnected => "DISCONNECTED"
  | .syncConnected => "SYNC_CONNECTED"
  | .authFailed => "AUTH_FAILED"
  | .connectedReadOnly => "CONNECTED_READ_ONLY"
  | .saslAuthenticated => "SASL_AUTHENTICATED"
  | .expired => "EXPIRED"

/-- The state with a given code, if there is one. -/
def ofCode? (v : Int32) : Option SessionState :=
  [SessionState.disconnected, .syncConnected, .authFailed, .connectedReadOnly,
    .saslAuthenticated, .expired].find? (·.code == v)

/-- Whether the session can serve requests. -/
def isConnected : SessionState → Bool
  | .syncConnected | .connectedReadOnly | .saslAuthenticated => true
  | _ => false

/-- A state shown as `NAME[code]`. -/
def display (s : SessionState) : String :=
  s.name ++ "[" ++ Decimal.ofInt s.code.toInt ++ "]"

end SessionState

end Ensemble
