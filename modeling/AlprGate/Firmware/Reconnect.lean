import AlprGate.Library.Backoff
import AlprGate.Library.Transition

/-! # When the gate dials the server

The Ethernet driver reports the link and the address, and the client's task dials while it believes
the network to be up. After every session, and after every attempt that does not become one, the
task sleeps, twice as long each time until a session has reached the server.
-/
namespace AlprGate.Rpc
open Backoff Transition

/-- What the network stack reports. -/
inductive NetEvent where
  | connected
  | disconnected
  | gotIp (addr : BitVec 32)
  | lostIp
  deriving DecidableEq, Repr

structure ReconnectConfig where
  reconnectMinMs : BitVec 32 := 1000
  reconnectMaxMs : BitVec 32 := 30000
  deriving DecidableEq, Repr

/-- Where `task_main` is: at the wait for the network, in `run_session`, or in the delay behind it,
with the milliseconds left. -/
inductive TaskPhase where
  | waiting
  | inSession
  | delaying (left : ℕ)
  deriving DecidableEq, Repr

/-- `attempts` says which calls of `run_session` have reached the stream and `delays` how long the
task slept after each, the last one first. -/
structure Reconnect where
  linkUp : Bool := false
  ipAddr : BitVec 32 := 0
  netUp : Bool := false
  backoffMs : BitVec 32
  phase : TaskPhase := .waiting
  attempts : List Bool := []
  delays : List (BitVec 32) := []
  deriving DecidableEq, Repr

inductive ReconnectStep where
  | net (e : NetEvent)
  | begins
  | ends (reachedStream : Bool)
  | elapse (ms : ℕ)
  deriving DecidableEq, Repr

namespace Reconnect

/-- The handlers of the driver with the callbacks that `app_main` installs. There is none for a lost
address. -/
def onEvent (s : Reconnect) : NetEvent → Reconnect
  | .connected => { s with linkUp := true }
  | .disconnected => { s with linkUp := false, ipAddr := 0, netUp := false }
  | .gotIp addr => { s with ipAddr := addr, netUp := true }
  | .lostIp => { s with ipAddr := 0 }

/-- `run_session` returns. -/
def ends (cfg : ReconnectConfig) (s : Reconnect) (reachedStream : Bool) : Reconnect :=
  let delay := wait cfg.reconnectMinMs s.backoffMs reachedStream
  { s with
    backoffMs := next cfg.reconnectMaxMs delay
    phase := .delaying delay.toNat
    attempts := reachedStream :: s.attempts
    delays := delay :: s.delays }

def elapse (s : Reconnect) (ms : ℕ) : Reconnect :=
  match s.phase with
  | .delaying left => { s with phase := if left ≤ ms then .waiting else .delaying (left - ms) }
  | _ => s

def step (cfg : ReconnectConfig) (s : Reconnect) : ReconnectStep → Reconnect
  | .net e => s.onEvent e
  | .begins => if s.phase = .waiting ∧ s.netUp = true then { s with phase := .inSession } else s
  | .ends reachedStream => if s.phase = .inSession then s.ends cfg reachedStream else s
  | .elapse ms => s.elapse ms

def boot (cfg : ReconnectConfig) : Reconnect := { backoffMs := cfg.reconnectMinMs }

end Reconnect

namespace Reconnect
variable {cfg : ReconnectConfig} {s : Reconnect}

/-- The delays are those of the backoff for the attempts made, and the task sleeps no longer than the
last of them. -/
structure Paced (cfg : ReconnectConfig) (s : Reconnect) : Prop where
  backoff : s.backoffMs = due cfg.reconnectMinMs cfg.reconnectMaxMs s.attempts
  delays : s.delays = waits cfg.reconnectMinMs cfg.reconnectMaxMs s.attempts
  left : ∀ left, s.phase = .delaying left → ∃ delay ∈ s.delays, left ≤ delay.toNat

theorem Paced.ends (h : Paced cfg s) (reachedStream : Bool) : Paced cfg (s.ends cfg reachedStream) := by
  refine ⟨?_,?_,?_⟩
  · change next _ (wait _ s.backoffMs _) = _
    rw [h.backoff]
    rfl
  · change wait _ s.backoffMs _ :: s.delays = _
    rw [h.backoff, h.delays]
    rfl
  · intro left hleft
    exact ⟨_,List.mem_cons_self,(TaskPhase.delaying.inj hleft).ge⟩

theorem Paced.step (h : Paced cfg s) (a : ReconnectStep) : Paced cfg (s.step cfg a) := by
  cases a with
  | net e =>
    cases e with
    | _ => exact ⟨h.backoff,h.delays,h.left⟩
  | begins =>
    refine iteInduction (motive:=Paced cfg) (fun _ => ?_) fun _ => h
    exact ⟨h.backoff,h.delays,fun _ hleft => TaskPhase.noConfusion hleft⟩
  | ends reachedStream =>
    exact iteInduction (motive:=Paced cfg) (fun _ => h.ends reachedStream) fun _ => h
  | elapse ms =>
    change Paced cfg (s.elapse ms)
    unfold elapse
    split
    · rename_i left hphase
      refine ⟨h.backoff,h.delays,?_⟩
      intro rest hrest
      dsimp only at hrest
      split at hrest
      · cases hrest
      · cases hrest
        obtain ⟨delay,hdelay,hle⟩ := h.left left hphase
        exact ⟨delay,hdelay,(Nat.sub_le _ _).trans hle⟩
    · exact h

/-- An attempt and the delay behind it. -/
def attempt (reachedStream : Bool) : List ReconnectStep :=
  [.begins, .ends reachedStream, .elapse (2 ^ 32)]

end Reconnect
end AlprGate.Rpc
