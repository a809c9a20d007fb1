import AlprGate.Simulation.VirtualGate

/-! # The firmware's wiring under the simulator's clock

The controller, its pump and its tracker are the firmware's own, step by step. The world
around them is the virtual gate's: its clock says when a one-shot is due, its position is
what the limit switches read and when a limit is reached. Every post is followed by a
schedule of the pump that drains the queue.
-/
namespace AlprGate.Sim
open StateMachine Control Rpc Transition

/-- The configuration that the firmware is built with. -/
def wiring (cfg : Config) : Rpc.Config :=
  { gate := { sm := ⟨cfg.motorTimeoutMs,cfg.autoCloseMs⟩, reverseOnBeam := cfg.reverseOnBeam } }

/-- `watchdogAt` and `autocloseAt` are the instants at which the one-shots are due, when they
are armed. -/
structure Wired where
  device : Device
  nowMs : ℕ := 0
  watchdogAt : ℕ := 0
  autocloseAt : ℕ := 0
  trace : List Entry := []

/-- The transition that becomes visible when the pump stores the state. -/
def entered (s : Controller) (op : Op) : List Entry :=
  if op = .storeState ∧ s.stateSnapshot ≠ s.sm.state then
    [⟨s.sm.state,s.relayOpen.state,s.relayClose.state⟩]
  else []

namespace Wired

def gate (w : Wired) : Controller := w.device.gate

def setGate (w : Wired) (s : Controller) : Wired := { w with device := { w.device with gate := s } }

/-- One step of the controller or of its surroundings. -/
def run (cfg : Config) (w : Wired) (a : Input) : Wired where
  device := w.device.step (wiring cfg) (.gate a)
  nowMs := w.nowMs
  watchdogAt :=
    if operation w.gate a = some .startWatchdog then w.nowMs + cfg.motorTimeoutMs else w.watchdogAt
  autocloseAt :=
    if operation w.gate a = some .startAutoclose then w.nowMs + cfg.autoCloseMs else w.autocloseAt
  trace := w.trace ++ (operation w.gate a).toList.flatMap (entered w.gate)

/-- One event, and more steps than it needs. -/
def round : List Input := .receive :: List.replicate 16 .advance

/-- A post is followed by at most one more, of the reversal. -/
def drain (cfg : Config) (w : Wired) : Wired := exec (run cfg) w (round ++ round)

/-- What the callback of an input or a timer does. -/
def post (w : Wired) (ev : Event) : Wired := w.setGate (w.gate.post ev)

/-- The limit switches read the position. -/
def sense (cfg : Config) (w : Wired) (positionMs : ℤ) : Wired :=
  w.setGate { w.gate with
    limitOpen := { w.gate.limitOpen with committed := decide ((cfg.travelMs : ℤ) ≤ positionMs) }
    limitClosed := { w.gate.limitClosed with committed := decide (positionMs ≤ 0) } }

/-- The tracker is armed before the event is dispatched. -/
def issue (cfg : Config) (w : Wired) (commandId : List UInt8) (c : Motion) : Wired :=
  let deadline := BitVec.ofNat 32 w.nowMs + BitVec.ofNat 32 cfg.commandDeadlineMs
  let inputs : List DeviceInput := [.command commandId c.kind .ready deadline, .arm]
  { w with device := exec (Device.issueStep (wiring cfg)) w.device inputs }

def tick (cfg : Config) (w : Wired) (dtMs : ℕ) : Wired :=
  { w with
    nowMs := w.nowMs + dtMs
    device := w.device.step (wiring cfg) (.tick (BitVec.ofNat 32 (w.nowMs + dtMs))) }

/-- The limit that the world's gate reaches is reported. -/
def arrive (cfg : Config) (world : VirtualGate) (dtMs : ℕ) (w : Wired) : Wired :=
  if world.ArrivesOpen cfg dtMs then (w.post .limitOpenHit).drain cfg
  else if world.ArrivesClosed dtMs then (w.post .limitClosedHit).drain cfg
  else w

def checkWatchdog (cfg : Config) (w : Wired) : Wired :=
  if w.gate.watchdogArmed = true ∧ w.watchdogAt ≤ w.nowMs then (w.run cfg .watchdogFires).drain cfg
  else w

def checkAutoclose (cfg : Config) (w : Wired) : Wired :=
  if w.gate.autocloseArmed = true ∧ w.autocloseAt ≤ w.nowMs then
    (w.run cfg .autocloseFires).drain cfg
  else w

def act (cfg : Config) (world : VirtualGate) (w : Wired) : Operation → Wired
  | .issue commandId c => (w.issue cfg commandId c).drain cfg
  | .localOpen => (w.run cfg (.command .open)).drain cfg
  | .localClose => (w.run cfg (.command .close)).drain cfg
  | .operatorStop => (w.run cfg (.command .stop)).drain cfg
  | .clearFault => (w.run cfg (.command .clearFault)).drain cfg
  | .tripBeam => (w.post .safetyBeamTripped).drain cfg
  | .clearBeam => (w.post .safetyBeamCleared).drain cfg
  | .advance dtMs =>
    (((w.tick cfg dtMs).arrive cfg world dtMs).checkWatchdog cfg).checkAutoclose cfg

/-- An operation in a world with the virtual gate's position. -/
def perform (cfg : Config) (world : VirtualGate) (w : Wired) (o : Operation) : Wired :=
  (w.sense cfg world.positionMs).act cfg world o

/-- The device that has booted on its closed limit, with a clear beam. -/
def booted (cfg : Config) : Wired :=
  exec (run cfg) ⟨{ gate := construct true false false },0,0,0,[]⟩ boot

end Wired

/-- The virtual gate and the firmware side by side, in the virtual gate's world. -/
def lockstep (cfg : Config) (p : VirtualGate × Wired) (o : Operation) : VirtualGate × Wired :=
  (p.1.perform cfg o, p.2.perform cfg p.1 o)

/-- What the program of an event leaves alone. -/
structure Steady (w w' : Wired) : Prop where
  sm : w'.gate.sm = w.gate.sm
  stage : w'.gate.stage = w.gate.stage
  ops : w'.gate.ops = w.gate.ops
  limitOpen : w'.gate.limitOpen = w.gate.limitOpen
  limitClosed : w'.gate.limitClosed = w.gate.limitClosed
  pending : w'.device.pending = w.device.pending

theorem Steady.refl (w : Wired) : Steady w w := ⟨rfl,rfl,rfl,rfl,rfl,rfl⟩

theorem Steady.trans {w w' w'' : Wired} (h : Steady w w') (h' : Steady w' w'') : Steady w w'' :=
  ⟨h'.sm.trans h.sm,h'.stage.trans h.stage,h'.ops.trans h.ops,
    h'.limitOpen.trans h.limitOpen,h'.limitClosed.trans h.limitClosed,h'.pending.trans h.pending⟩

namespace Wired
variable {cfg : Config} {w : Wired}

/-! ### Draining the queue -/

def setOps (w : Wired) (l : List Op) : Wired := w.setGate { w.gate with ops := l }

/-- What an elementary operation does to the wired device. -/
def runOp (cfg : Config) (w : Wired) (op : Op) : Wired where
  device := match op with
    | .notify s r transitioned => w.device.notifyGateEvent (s, r, transitioned)
    | op => { w.device with gate := w.gate.runOp op }
  nowMs := w.nowMs
  watchdogAt := if op = .startWatchdog then w.nowMs + cfg.motorTimeoutMs else w.watchdogAt
  autocloseAt := if op = .startAutoclose then w.nowMs + cfg.autoCloseMs else w.autocloseAt
  trace := w.trace ++ entered w.gate op

/-- The operations of a program, one after the other. -/
def runOps (cfg : Config) (w : Wired) (l : List Op) : Wired := l.foldl (runOp cfg) w

theorem run_op {op : Op} {rest : List Op} (h : w.gate.ops = op :: rest) :
    w.run cfg .advance = (w.setOps rest).runOp cfg op := by
  rcases w with ⟨⟨⟨sm,ro,rc,lo,lc,bm,led,ss,rs,q,wd,ac,stage,ops⟩,t,v,k,p⟩,now,wa,aa,tr⟩
  change ops = op :: rest at h
  subst h
  cases op <;> simp [run, runOp, setOps, setGate, gate, operation, entered, Device.step,
    Device.runGate, listenerCall, Control.step, Controller.advance, Controller.runOp,
    Device.notifyGateEvent, Device.record]

theorem setOps_runOp (l : List Op) (op : Op) :
    (w.runOp cfg op).setOps l = (w.setOps l).runOp cfg op := by
  cases op <;> rfl

theorem runOp_ops (op : Op) : (w.runOp cfg op).gate.ops = w.gate.ops := by
  cases op <;> rfl

theorem setOps_ops (h : w.gate.ops = []) : w.setOps [] = w := by
  rcases w with ⟨⟨⟨sm,ro,rc,lo,lc,bm,led,ss,rs,q,wd,ac,stage,ops⟩,t,v,k,p⟩,now,wa,aa,tr⟩
  change ops = [] at h
  subst h
  rfl

/-- As many steps as there are operations run them all, at any stage. -/
theorem exec_advance (l : List Op) {w : Wired} (h : w.gate.ops = l) :
    exec (run cfg) w (List.replicate l.length .advance) = (w.setOps []).runOps cfg l := by
  induction l generalizing w with
  | nil => exact (setOps_ops h).symm
  | cons op l ih =>
    have hops : ((w.setOps l).runOp cfg op).gate.ops = l := by
      rw [runOp_ops]
      rfl
    rw [List.length_cons, List.replicate_succ, exec_cons, run_op h, ih hops, setOps_runOp]
    rfl

theorem run_idle (h : w.gate.Idle) : w.run cfg .advance = w := by
  obtain ⟨hstage,hops⟩ := h
  rcases w with ⟨⟨⟨sm,ro,rc,lo,lc,bm,led,ss,rs,q,wd,ac,stage,ops⟩,t,v,k,p⟩,now,wa,aa,tr⟩
  change stage = .pump at hstage
  change ops = [] at hops
  subst hstage hops
  simp [run, gate, operation, Device.step, Device.runGate, listenerCall, Control.step,
    Controller.advance]

theorem exec_idle (h : w.gate.Idle) (n : ℕ) :
    exec (run cfg) w (List.replicate n .advance) = w := by
  induction n with
  | zero => rfl
  | succ n ih => rw [List.replicate_succ, exec_cons, run_idle h, ih]

theorem runOps_idle (l : List Op) (h : w.gate.Idle) : (w.runOps cfg l).gate.Idle := by
  unfold runOps
  induction l generalizing w with
  | nil => exact h
  | cons op l ih =>
    apply ih
    cases op <;> exact h

variable (cfg) in
/-- The pump runs its program and waits. -/
theorem exec_pump {n : ℕ} (hstage : w.gate.stage = .pump) (h : w.gate.ops.length ≤ n) :
    exec (run cfg) w (List.replicate n .advance) = (w.setOps []).runOps cfg w.gate.ops := by
  obtain ⟨k,rfl⟩ := Nat.exists_eq_add_of_le h
  rw [List.replicate_add, exec_append, exec_advance w.gate.ops rfl]
  exact exec_idle (runOps_idle (w:=w.setOps []) _ ⟨hstage,rfl⟩) k

/-- The machine has handled an event that the pump took. -/
def received (w : Wired) (r : Machine × Outputs) (rest : List Event) : Wired :=
  w.setGate { w.gate with sm := r.1, queue := rest }

/-- The pump at a stage with a program to run. -/
def setProgram (w : Wired) (stage : Stage) (l : List Op) : Wired :=
  w.setGate { w.gate with stage := stage, ops := l }

theorem run_receive {ev : Event} {rest : List Event} (hidle : w.gate.Idle)
    (hqueue : w.gate.queue = ev :: rest) :
    w.run cfg .receive = (w.received (handle w.gate.sm ev) rest).setProgram
      (stageAfter ev (handle w.gate.sm ev).2)
      (pumpProgram (wiring cfg).gate (handle w.gate.sm ev).2) := by
  obtain ⟨hstage,hops⟩ := hidle
  rcases w with ⟨⟨⟨sm,ro,rc,lo,lc,bm,led,ss,rs,q,wd,ac,stage,ops⟩,t,v,k,p⟩,now,wa,aa,tr⟩
  change stage = .pump at hstage
  change ops = [] at hops
  change q = ev :: rest at hqueue
  subst hstage hops hqueue
  simp [run, received, setProgram, setGate, gate, operation, Device.step, Device.runGate,
    listenerCall, Control.step, Controller.receive]

theorem run_receive_empty (hidle : w.gate.Idle) (hqueue : w.gate.queue = []) :
    w.run cfg .receive = w := by
  obtain ⟨hstage,hops⟩ := hidle
  rcases w with ⟨⟨⟨sm,ro,rc,lo,lc,bm,led,ss,rs,q,wd,ac,stage,ops⟩,t,v,k,p⟩,now,wa,aa,tr⟩
  change stage = .pump at hstage
  change ops = [] at hops
  change q = [] at hqueue
  subst hstage hops hqueue
  simp [run, gate, operation, Device.step, Device.runGate, listenerCall, Control.step,
    Controller.receive]

theorem length_actionOps (actions : List Action) :
    (actions.flatMap actionOps).length ≤ 2 * actions.length := by
  induction actions with
  | nil => exact Nat.le_refl 0
  | cons a actions ih =>
    have hone : (actionOps a).length ≤ 2 := by
      cases a <;> decide
    rw [List.flatMap_cons, List.length_append, List.length_cons]
    omega

theorem length_manageTimers (gcfg : Control.Config) (out : Outputs) :
    (manageTimers gcfg out).length ≤ 4 := by
  unfold manageTimers
  split
  · exact Nat.zero_le 4
  · split <;> split <;> simp

/-- Three actions at most, so a round is long enough for a program. -/
theorem length_pumpProgram (gcfg : Control.Config) {out : Outputs} (h : out.actions.length ≤ 3) :
    (pumpProgram gcfg out).length ≤ 16 := by
  have hexecute : (execute out).length ≤ 8 := by
    have hactions := length_actionOps out.actions
    rw [execute, List.length_append]
    simp only [List.length_cons, List.length_nil]
    omega
  have htimers := length_manageTimers gcfg out
  have hpolicies : (applyPolicies gcfg out).length ≤ 2 := by
    unfold applyPolicies
    split
    · exact Nat.le_succ 1
    · split
      · exact Nat.le_refl 2
      · exact Nat.zero_le 2
  have hlistener : (listener out).length ≤ 1 := by
    unfold listener
    split
    · exact Nat.le_refl 1
    · exact Nat.zero_le 1
  simp only [pumpProgram, List.length_append]
  omega

theorem length_handle (m : Machine) (ev : Event) : (handle m ev).2.actions.length ≤ 3 := by
  rcases handle_cases m ev with ⟨s,stored,reported,actions,hedge,hm⟩ | ⟨-,hm⟩ | ⟨-,-,hm⟩
  · rw [hm]
    generalize m.state = old at hedge
    cases hedge <;> simp
  · rw [hm]
    simp
  · rw [hm]
    simp

theorem setProgram_idle (h : w.gate.Idle) : w.setProgram .pump [] = w := by
  obtain ⟨hstage,hops⟩ := h
  rcases w with ⟨⟨⟨sm,ro,rc,lo,lc,bm,led,ss,rs,q,wd,ac,stage,ops⟩,t,v,k,p⟩,now,wa,aa,tr⟩
  change stage = .pump at hstage
  change ops = [] at hops
  subst hstage hops
  rfl

/-- A round handles one event and runs its program, unless the event resets a fault. -/
theorem exec_round {ev : Event} {rest : List Event} (hidle : w.gate.Idle)
    (hqueue : w.gate.queue = ev :: rest)
    (hstage : stageAfter ev (handle w.gate.sm ev).2 = .pump) :
    exec (run cfg) w round = (w.received (handle w.gate.sm ev) rest).runOps cfg
      (pumpProgram (wiring cfg).gate (handle w.gate.sm ev).2) := by
  rw [round, exec_cons, run_receive hidle hqueue, hstage]
  generalize hw : w.received (handle w.gate.sm ev) rest = t
  have hready : t.gate.Idle := by
    rw [← hw]
    exact hidle
  have hprogram := exec_pump cfg (w:=t.setProgram .pump
    (pumpProgram (wiring cfg).gate (handle w.gate.sm ev).2)) rfl
    (length_pumpProgram _ (length_handle w.gate.sm ev))
  rw [hprogram]
  have hclean : ∀ l, (t.setProgram .pump l).setOps [] = t :=
    fun _ => setProgram_idle hready
  rw [hclean]
  rfl

theorem exec_round_empty (hidle : w.gate.Idle) (hqueue : w.gate.queue = []) :
    exec (run cfg) w round = w := by
  rw [round, exec_cons, run_receive_empty hidle hqueue]
  exact exec_idle hidle 16

variable (cfg w) in
theorem steady_runOps (l : List Op) : Steady w (w.runOps cfg l) := by
  unfold runOps
  induction l generalizing w with
  | nil => exact .refl w
  | cons op l ih =>
    have hop : Steady w (w.runOp cfg op) := by
      cases op <;> exact ⟨rfl,rfl,rfl,rfl,rfl,rfl⟩
    exact hop.trans (ih (w.runOp cfg op))

/-! ### The reset of a fault -/

theorem run_pumpReadOpen (hstage : w.gate.stage = .pumpReadOpen) (hops : w.gate.ops = []) :
    w.run cfg .advance = w.setProgram (.pumpResolve w.gate.limitOpen.committed) [] := by
  rcases w with ⟨⟨⟨sm,ro,rc,lo,lc,bm,led,ss,rs,q,wd,ac,stage,ops⟩,t,v,k,p⟩,now,wa,aa,tr⟩
  change stage = .pumpReadOpen at hstage
  change ops = [] at hops
  subst hstage hops
  simp [run, setProgram, setGate, gate, operation, Device.step, Device.runGate, listenerCall,
    Control.step, Controller.advance]

theorem run_pumpResolve {openActive : Bool} (hstage : w.gate.stage = .pumpResolve openActive)
    (hops : w.gate.ops = []) :
    let r := initFrom openActive w.gate.limitClosed.committed w.gate.sm
    w.run cfg .advance = (w.received r w.gate.queue).setProgram .pump
      (execute r.2 ++ manageTimers (wiring cfg).gate r.2) := by
  rcases w with ⟨⟨⟨sm,ro,rc,lo,lc,bm,led,ss,rs,q,wd,ac,stage,ops⟩,t,v,k,p⟩,now,wa,aa,tr⟩
  change stage = .pumpResolve openActive at hstage
  change ops = [] at hops
  subst hstage hops
  simp [run, received, setProgram, setGate, gate, operation, Device.step, Device.runGate,
    listenerCall, Control.step, Controller.advance, Controller.resolveBootPosition]

/-- What the pump runs once a fault is reset: the program of the reset itself. -/
def cleared (cfg : Config) (w : Wired) : Wired :=
  ((w.received (handle w.gate.sm .faultCleared) []).setProgram .pumpReadOpen []).runOps cfg
    (pumpProgram (wiring cfg).gate (handle w.gate.sm .faultCleared).2)

variable (cfg w) in
theorem steady_cleared : (w.cleared cfg).gate.limitOpen = w.gate.limitOpen ∧
    (w.cleared cfg).gate.limitClosed = w.gate.limitClosed ∧
    (w.cleared cfg).device.pending = w.device.pending := by
  have hsteady := steady_runOps cfg
    ((w.received (handle w.gate.sm .faultCleared) []).setProgram .pumpReadOpen [])
    (pumpProgram (wiring cfg).gate (handle w.gate.sm .faultCleared).2)
  exact ⟨hsteady.limitOpen,hsteady.limitClosed,hsteady.pending⟩

/-- And then the position that the limits show, without a word to the listener. -/
def resolved (cfg : Config) (w : Wired) : Wired :=
  let r := initFrom w.gate.limitOpen.committed w.gate.limitClosed.committed w.gate.sm
  ((w.received r w.gate.queue).setProgram .pump []).runOps cfg
    (execute r.2 ++ manageTimers (wiring cfg).gate r.2)

theorem length_resolve (gcfg : Control.Config) (openActive closedActive : Bool) (m : Machine) :
    (execute (initFrom openActive closedActive m).2 ++
      manageTimers gcfg (initFrom openActive closedActive m).2).length ≤ 9 := by
  have hexecute : (execute (initFrom openActive closedActive m).2).length = 5 := by
    unfold initFrom
    split
    · rfl
    · split
      · rfl
      · rfl
  have htimers := length_manageTimers gcfg (initFrom openActive closedActive m).2
  rw [List.length_append, hexecute]
  omega

variable (cfg w) in
theorem exec_program {l : List Op} {n : ℕ} (h : l.length ≤ n) :
    exec (run cfg) (w.setProgram .pump l) (List.replicate n .advance) =
      (w.setProgram .pump []).runOps cfg l := exec_pump cfg rfl h

variable (cfg w) in
theorem exec_setProgram (stage : Stage) (l : List Op) :
    exec (run cfg) (w.setProgram stage l) (List.replicate l.length .advance) =
      (w.setProgram stage []).runOps cfg l := exec_advance l rfl

theorem exec_resolve (hstage : w.gate.stage = .pumpReadOpen) (hops : w.gate.ops = []) :
    exec (run cfg) w (List.replicate 11 .advance) = w.resolved cfg := by
  rw [List.replicate_succ, exec_cons, run_pumpReadOpen hstage hops, List.replicate_succ, exec_cons,
    run_pumpResolve rfl rfl, exec_program cfg _ (length_resolve _ _ _ _)]
  rfl

/-- A round that handles the reset of a fault. -/
theorem exec_round_reset (hidle : w.gate.Idle) (hqueue : w.gate.queue = [.faultCleared])
    (hstate : w.gate.sm.state = .faulted) :
    exec (run cfg) w round = (w.cleared cfg).resolved cfg := by
  have hreset : handle w.gate.sm .faultCleared = _ :=
    Edge.handle_eq (hstate ▸ Edge.resetFault)
  have hprogram : (pumpProgram (wiring cfg).gate (handle w.gate.sm .faultCleared).2).length = 5 := by
    rw [hreset]
    simp [pumpProgram, execute, actionOps, manageTimers, applyPolicies, listener]
  have hstage : stageAfter .faultCleared (handle w.gate.sm .faultCleared).2 = .pumpReadOpen := by
    rw [hreset]
    rfl
  have hsplit : List.replicate 16 Input.advance =
      List.replicate (pumpProgram (wiring cfg).gate (handle w.gate.sm .faultCleared).2).length .advance ++
        List.replicate 11 .advance := by
    rw [hprogram]
    rfl
  have hsteady := steady_runOps cfg
    ((w.received (handle w.gate.sm .faultCleared) []).setProgram .pumpReadOpen [])
    (pumpProgram (wiring cfg).gate (handle w.gate.sm .faultCleared).2)
  rw [round, exec_cons, run_receive hidle hqueue, hstage, hsplit, exec_append, exec_setProgram,
    exec_resolve hsteady.stage hsteady.ops]
  rfl

end Wired
end AlprGate.Sim
