import Backlog.Host.Basic
import Backlog.Monitor

/-!
# Requests to a running daemon

A daemon looks at its signals between its steps.  A request to shut down stays; the others
are forgotten when they are taken.
-/

namespace Backlog.Requests

variable {m : Type → Type} [Monad m] [Host m]

/-- Whether the daemon is to end. -/
def shouldShutdown : m Bool := Host.isRaised .shutdown

/-- Whether the settings are to be loaded again. -/
def takeReload : m Bool := Host.takeSignal .reload

/-- The status that the check is to have, if one was asked for.  Of the two requests the
one to deactivate wins. -/
def takeToggle : m (Option MonitorStatus) := do
  let activate ← Host.takeSignal (m := m) .activate
  let deactivate ← Host.takeSignal (m := m) .deactivate
  return if deactivate then some .deactivated else if activate then some .active else none

end Backlog.Requests
