import EbpfNids.Library.Refinement
import Mathlib.Data.List.Infix

/-!
# Queues between the parts of a system

A part of a system hands on what comes to it, in order, with some of it waiting
in between. When every step puts what comes in behind what is waiting and takes
what goes out from the front, what has gone out over a run, and what is waiting
at its end, are what has come in (`exec_fifo`).
-/

set_option autoImplicit false

namespace Library.Refinement

open Library.Runs

variable {σ ε α β : Type*} {step : σ → ε → σ}

/-- **Queue rule.** -/
theorem exec_fifo (queue : σ → List α) (incoming outgoing : σ × ε → List α) {start : σ}
    {events : List ε}
    (fifo : ∀ p ∈ steps step start events,
      outgoing p ++ queue (step p.1 p.2) = queue p.1 ++ incoming p) :
    operations step outgoing start events ++ queue (exec step start events) =
      queue start ++ operations step incoming start events := by
  induction events generalizing start with
  | nil => exact (List.append_nil _).symm
  | cons event rest ih =>
      have here := fifo (start, event) List.mem_cons_self
      have later := ih fun p member => fifo p (List.mem_cons_of_mem _ member)
      rw [operations_cons, operations_cons, exec_cons, List.append_assoc, later,
        ← List.append_assoc, here, List.append_assoc]

/-- What a step makes of some operations, made of the operations of the run. -/
theorem operations_flatMap {ops : σ × ε → List α} {made : α → List β} (start : σ)
    (events : List ε) :
    (operations step ops start events).flatMap made =
      operations step (fun p => (ops p).flatMap made) start events :=
  List.flatMap_assoc

theorem operations_filterMap {ops : σ × ε → List α} {kept : α → Option β} (start : σ)
    (events : List ε) :
    (operations step ops start events).filterMap kept =
      operations step (fun p => (ops p).filterMap kept) start events :=
  List.filterMap_flatMap

theorem operations_congr {ops ops' : σ × ε → List α} {start : σ} {events : List ε}
    (same : ∀ p ∈ steps step start events, ops p = ops' p) :
    operations step ops start events = operations step ops' start events :=
  List.flatMap_congr same

end Library.Refinement
