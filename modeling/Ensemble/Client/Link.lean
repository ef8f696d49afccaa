import Ensemble.Envelope.Response
import Ensemble.Client.Config
import Ensemble.Client.Watcher
import Ensemble.Session

/-! # The session a client drives

A client does not talk to servers itself: it hands each request, with the chroot already applied,
to a session that owns the connection, assigns request ids, matches replies and delivers watch
notifications. `Link m` is what the client needs from such a session, over any monad `m` in which
the session's effects happen. Watchers are named by an id.

Waiting between retries is an effect of the same monad, so a run of the client records or
performs it like any other.
-/

namespace Ensemble

/-- What a client needs from the session that carries its requests. -/
structure Link (m : Type → Type) where
  /-- Sends a request and waits for its reply. -/
  queue : Request → m (Except Error Response)
  /-- Leaves a watcher of one kind on a path. -/
  register : WatcherKind → String → String → m Registration
  /-- The session timeout in milliseconds, which caps the wait before a retry. -/
  sessionTimeout : m Nat
  /-- Waits a number of milliseconds. -/
  sleep : Nat → m Unit
  /-- Adds credentials of a scheme to the session. -/
  addAuth : String → List UInt8 → m Unit
  /-- Opens the session for a configuration. -/
  connect : ClientConfig → m (Except Error Unit)
  /-- Closes the session. -/
  close : m (Except Error Unit)
  /-- The state of the session. -/
  state : m SessionState
  /-- The session id, once the server has given one. -/
  sessionId : m (Option (List UInt8))
  /-- The session password, once the server has given one. -/
  sessionPassword : m (Option (List UInt8))

end Ensemble
