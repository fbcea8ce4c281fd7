import Ctunnel.Net.Control
import Ctunnel.Net.Relay

/-!
# Opening a relay (`src/net/relay.c`, called from both ends)

A relay slot of either end, and `ct_relay_init` as the two ends call it: with the
cipher and the data master of the session.
-/

namespace Ctunnel

open Lib

/-- A relay slot before its first use. -/
def CtRelay.unused : CtRelay := { CtRelay.zero invalidSocket invalidSocket false with closed := true }

/-- What a relay is opened with. -/
structure RelayIn where
  direct : Socket
  work : Socket
  context : StreamContext
  metadata : Option CtStreamMetadata
  alloc : RelayAlloc

/-- `ct_relay_init` in the role `e`, on a slot of the caller. -/
def relayInit (b : Build) (m : Monocypher) (e : End) (c : CtControl) (x : RelayIn) :
    Call Effect CtRelay Unit := do
  if b.dataEncryption = true ∧ x.context.mode = .required then
    Call.tell [.deriveData e c.keys x.context]
  Call.ofOutcome fun _ => ctRelayInit b m x.alloc x.direct x.work e.isClient c.cipher
    c.keys.dataMaster x.context x.metadata

end Ctunnel
