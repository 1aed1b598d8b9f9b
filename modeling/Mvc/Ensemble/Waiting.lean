import Mvc.Ensemble.Run

/-! # Waiting for tasks

Whoever has nothing else to do until some time waits for tasks and runs them as they come. The
clock is read before each task. What is received in the time that is left is up to the channel:
a task, unless none comes.
-/

namespace Mvc

/-- A clock, and a channel on which tasks are received. -/
structure Channel (τ : Type) where
  /-- What is received from a queue within a time, and what is left in the queue. -/
  receive? : (time : Nat) → Dispatcher τ → Option (τ × Dispatcher τ)
  /-- What the clock shows when it is read again. -/
  clock : (reading : Nat) → Nat

/-- The channel hands out the next task if there is one, and nothing otherwise. -/
def Channel.Faithful {τ : Type} (channel : Channel τ) : Prop :=
  ∀ time q, channel.receive? time q = q.next?

namespace Ensemble

variable {σ ε : Type} (channel : Channel (Task σ))

/-- Run tasks as they come until a deadline, at most `fuel`, and count them. -/
def drainUntil (run : Runner σ ε) (d deadline : Nat) :
    (reading fuel : Nat) → Proc (Ensemble σ ε) Nat
  | _, 0 => Proc.tooDeep
  | reading, fuel + 1 => do
    match channel.receive? (deadline - channel.clock reading) ((← get).dispatcher d) with
    | none => return 0
    | some (task, rest) =>
      modify (updateDispatcher d fun _ => rest)
      run (.task task)
      modify (updateDispatcher d Dispatcher.finish)
      return (← drainUntil run d deadline (reading + 1) fuel) + 1

/-- Run tasks as they come for some time. -/
def drainFor (timeout : Nat) (run : Runner σ ε) (d fuel : Nat) : Proc (Ensemble σ ε) Nat :=
  drainUntil channel run d (channel.clock 0 + timeout) 1 fuel

/-- `body`, tasks being waited for where they are drained. -/
def waitingBody (timeout : Nat) (run : Runner σ ε) (β : Behaviour σ ε) (fuel : Nat) : Runner σ ε
  | .action (.drain d) => drainFor channel timeout run d fuel
  | call => body run β fuel call

/-- `run`, tasks being waited for where they are drained. -/
def runWaiting (timeout : Nat) (β : Behaviour σ ε) : Nat → Runner σ ε
  | 0 => fun _ => Proc.tooDeep
  | depth + 1 => waitingBody channel timeout (runWaiting timeout β depth) β depth

end Ensemble

end Mvc
