import RasatTrading.Guarantees.DoubleSale
import RasatTrading.Sent.Stops

/-! When the orders at the broker meet the exchange filters, on every path that sends them. -/

namespace Rasat

open Coop

variable {svc : Service} {db : Database} {s : State}

/-- The single order that a task is sending. -/
def placing (s : State) (task : ℕ) : Option PlaceOrder :=
  match s.tasks task with
  | some (.ask (.broker (.placeOrder order)) _) => some order
  | _ => none

/-- Every task of the daemon keeps to the rule. -/
theorem sending_sound : (recorded sendingRule fun _ => True).Sound (machine svc) fun _ _ => True :=
  recorded_sound startup_sends (fun call => call_sends call) _

theorem started_sending : (recorded sendingRule fun _ => True).Represented (started svc db) :=
  recorded_started startup_sends

theorem Reached.sending (reached : Reached svc db s) :
    (recorded sendingRule fun _ => True).Represented s :=
  sending_sound.represented started_sending reached

end Rasat
