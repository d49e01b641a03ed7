import TaxiService.Model.Consumer

/-!
# The consumer and its broker

The queue `taxi.audit` and the process that consumes it, one message at a time
(`prefetch_count=1`). The process moves by one call to its surroundings, and it
may be killed between any two. What it had written to a file that was still
open reaches the disk only up to some point then. The process is restarted
after that, and a message that was not acknowledged is in the queue again.
-/

namespace TaxiService.Model

open TaxiService.Lib

/-- A message that is being handled, with the rest of its `handle_message`. -/
structure Delivery (F : Type) where
  tag : Nat
  body : List UInt8
  rest : Consumer F Unit

/-- `delivered` has the messages by their delivery tags. -/
structure Deployment (F : Type) where
  host : Host
  ready : List (List UInt8)
  delivered : List (List UInt8)
  current : Option (Delivery F)

inductive DeploymentEvent where
  | publish (body : List UInt8)
  | deliver (n : Nat)
  | step
  | kill (flushed : Nat)
  deriving DecidableEq, Repr

variable {F : Type}

def Deployment.start : Deployment F where
  host := ⟨none, none, []⟩
  ready := []
  delivered := []
  current := none

/-- The messages the broker calls acknowledged. -/
def ackedOf (delivered : List (List UInt8)) (verdicts : List (Nat × Verdict)) :
    List (List UInt8) :=
  verdicts.filterMap fun p => if p.2 = .ack then delivered[p.1]? else none

def Deployment.acked (s : Deployment F) : List (List UInt8) :=
  ackedOf s.delivered s.host.verdicts

/-- The process is done with a message, or gone. Unless it was acknowledged,
the message is ready again. -/
def Deployment.release (s : Deployment F) : Deployment F :=
  match s.current with
  | none => s
  | some d =>
      { s with
        current := none
        ready := if (d.tag, .ack) ∈ s.host.verdicts then s.ready
          else d.body :: s.ready }

/-- What a killed process leaves of the file: of what was written to it while
it was open, a part. -/
def Host.crash (h : Host) (flushed : Nat) : Host :=
  { h with
    disk := (h.writer.map (List.take flushed)).or h.disk
    writer := none }

variable (python : Python F)

def deploymentStep (s : Deployment F) : DeploymentEvent → Deployment F
  | .publish body => { s with ready := s.ready ++ [body] }
  | .deliver n =>
      match s.current, s.ready[n]? with
      | none, some body =>
          let tag := s.delivered.length
          { s with
            ready := s.ready.eraseIdx n
            delivered := s.delivered ++ [body]
            current := some ⟨tag, body, handleMessage python tag body⟩ }
      | _, _ => s
  | .step =>
      match s.current with
      | none => s
      | some d =>
          let (rest, host) := d.rest.step callHost s.host
          let s := { s with host, current := some { d with rest } }
          if rest.outcome?.isSome then s.release else s
  | .kill flushed =>
      Deployment.release { s with host := s.host.crash flushed }

end TaxiService.Model
