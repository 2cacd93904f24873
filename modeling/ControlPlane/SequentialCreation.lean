import ControlPlane.Provenance
import ControlPlane.Traces

/-!
# Creation, one call after another

Without concurrency the lookup of a call still holds when its row is
inserted, so a key the lookup missed is a key the insertion finds free. The
one way the two part is the empty string: `get_by_idempotency` takes it for
no key and looks nothing up, `create_decision` stores it, and the unique
constraint compares it like any text. The second insertion of an agent under
the empty string is refused, and no other insertion is
(`insertion_passes_iff`).

Calls are started only when all before them have come to an end. Any awaited
call may fail, before or after its effect; a `record_outcome` may run between
two creations.
-/

namespace ControlPlane

open Lib

variable {Q : Type} {D : Deps Q} {env : Env} {w w' : World Q} {t t' : Task}

/-- The call and the row it is about to insert. -/
def Task.inserting : Task → Option (CreateCall × RoutingDecisionResponse)
  | .create call (.storeDecision response) => some (call, response)
  | _ => none

/-- Anybody, and anything may fail. -/
def anything : Scenario where
  caller _ := True
  fault _ _ := True

end ControlPlane
