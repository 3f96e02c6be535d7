import Nullxes.Launcher.Wire
import Nullxes.NxGreet.Wire
import Nullxes.NxSettings.Wire
import Nullxes.Slate.Wire

/-!
# The clients with one window

The launcher, the settings window, the greeter and the terminal, each with its own `Dispatch`
implementations, share the way in which they use their connection.

## Main results

* `clients_conform` — none of them is ever disconnected for a protocol error
-/

namespace Nullxes

namespace Wire

/-- **No client with one window breaks the protocol.** However its allocations go, whatever is
typed, greetd answers or the shell prints, and however a compositor that keeps to its own rule
orders its configures, pings, capabilities and releases: a configure is acknowledged once and
before anything is drawn for it, a buffer lies within its pool and is made before it is committed,
none is committed that the compositor holds, and a keyboard is asked of a seat that has one. -/
theorem clients_conform :
    Launcher.wireClient.Conforms ∧ (∀ ctx, (NxSettings.wireClient ctx).Conforms) ∧
      NxGreet.wireClient.Conforms ∧ Slate.wireClient.Conforms :=
  ⟨Launcher.wireClient.conforms, fun ctx => (NxSettings.wireClient ctx).conforms,
    NxGreet.wireClient.conforms, Slate.wireClient.conforms⟩

/-- A terminal that is shown, made smaller, and shown again with its first buffer back. -/
def session : List Slate.Event :=
  [.dispatch (.configure 7), .dispatch (.release 0), .dispatch (.toplevelConfigure 40 0),
    .dispatch (.configure 8), .dispatch (.ping 9)]

/-- The terminal, as it starts. -/
def started : Slate.SlateState × List Entry :=
  ((Slate.SlateState.new (fun _ => none) fun _ => none).initSurface, [.request .surface])

theorem clients_conform_session :
    protocol.Legal .new (Slate.wireClient.machine.run started session).2 :=
  clients_conform.2.2.2 started session ⟨⟨_, _, rfl⟩, rfl⟩ (by decide)

example : ((Slate.wireClient.machine.run started session).2.filter fun e =>
      e matches .request (.ackConfigure _) | .request (.commit ..)) =
    [.request (.ackConfigure 7), .request (.commit 0 800 500), .request (.ackConfigure 8),
      .request (.commit 2 40 500)] := by decide

end Wire

end Nullxes
