/-
  IncusDemo.Proxy

  A connection to the TLS proxy (`proxyHandle` of proxy.go), up to the dial of
  the instance.
-/

import IncusDemo.Effect

namespace IncusDemo

open Go

/-- `proxyHandle` for a client that asks for the server name `target`. -/
def proxyHandle (target : String) : Prog Unit := do
  match ← perform .handshake with
  | .error _ => pure ()
  | .ok _ =>
    let id := splitFirst target '.'
    match ← perform (.query (.dbGetInstance id true)) with
    | .error _ => pure ()
    | .ok none => pure ()
    | .ok (some row) =>
      if row.instanceIP = "" then pure ()
      else
        let _ ← perform (.dial row.instanceIP "8443")

end IncusDemo
