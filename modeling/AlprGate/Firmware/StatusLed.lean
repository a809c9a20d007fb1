import AlprGate.Firmware.Drivers
import AlprGate.Library.Progress
import Mathlib.Logic.Function.Basic

/-! # The status LED

Three tasks call `render`, and a timer task runs the animation. `render` leaves a note for the timer
task and makes sure that the timer is running; a frame that ends its pattern stops the timer. No
lock is held in either, so the timer task can stop the timer behind a `render` that has just found
it running.
-/
namespace AlprGate.Drivers
open Transition

inductive LedPin where
  | red
  | green
  | yellow
  deriving DecidableEq, Repr

/-- Which of the three LEDs are on. -/
abbrev Colour := LedPin → Bool

def setColor (red green yellow : Bool) : Colour
  | .red => red
  | .green => green
  | .yellow => yellow

/-- What a callback does: the colour that it sets, and whether it stops the timer or counts. -/
structure Frame where
  colour : Colour
  stops : Bool := false

def kAuthFlashFrames : BitVec 32 := 6
def kDenyFlashFrames : BitVec 32 := 6
def kBootOkFrames : BitVec 32 := 20
def kSlowBlinkPeriod : BitVec 32 := 10
def kFastBlinkPeriod : BitVec 32 := 4

/-- In the first half of a blink. -/
def blink (step period : BitVec 32) : Bool := step % period < period / 2

/-- The `switch` of `on_tick`. -/
def frame (p : Pattern) (step : BitVec 32) : Frame :=
  match p with
  | .off => ⟨setColor false false false,true⟩
  | .bootOk =>
    if kBootOkFrames ≤ step then ⟨setColor false false false,true⟩
    else ⟨setColor false true false,false⟩
  | .authFlash =>
    if kAuthFlashFrames ≤ step then ⟨setColor false false false,true⟩
    else ⟨setColor false (step &&& 1 == 0) false,false⟩
  | .denyFlash =>
    if kDenyFlashFrames ≤ step then ⟨setColor false false false,true⟩
    else ⟨setColor (step &&& 1 == 0) false false,false⟩
  | .faultSlow => ⟨setColor (blink step kSlowBlinkPeriod) false false,false⟩
  | .otaPulse => ⟨setColor false false (blink step kSlowBlinkPeriod),false⟩
  | .gateMoving => ⟨setColor false false (blink step kFastBlinkPeriod),false⟩
  | .gateOpen => ⟨setColor false true false,true⟩
  | .gateStopped =>
    if blink step kSlowBlinkPeriod = true then ⟨setColor true false false,false⟩
    else ⟨setColor false false true,false⟩

/-- The patterns that never end. -/
def Pattern.repeats : Pattern → Bool
  | .faultSlow | .otaPulse | .gateMoving | .gateStopped => true
  | _ => false

theorem frame_stops_of_repeats {p : Pattern} (h : p.repeats = true) (step : BitVec 32) :
    (frame p step).stops = false := by
  cases p with
  | gateStopped =>
    by_cases hblink : blink step kSlowBlinkPeriod = true
    · simp [frame, hblink]
    · simp [frame, hblink]
  | faultSlow => rfl
  | otaPulse => rfl
  | gateMoving => rfl
  | _ => cases h

/-- The tasks that call `render`: the event pump, the RPC task and an update. -/
inductive Renderer where
  | ctrl
  | rpc
  | ota
  deriving DecidableEq, Repr

/-- Where a task is in `render`. -/
inductive RenderAt where
  | idle
  | storing (p : Pattern)
  | requesting (p : Pattern)
  | clearing (left : List LedPin)
  | lookingStop
  | stopping
  | lookingStart
  | starting
  deriving DecidableEq, Repr

/-- Where the timer task is in `on_tick`. -/
inductive CallbackAt where
  | idle
  | taking
  | loading
  | writing (f : Frame) (left : List LedPin)
  | lookingStop
  | stopping
  | counting

/-- The callback has yet to look at the restart request. -/
def CallbackAt.fresh : CallbackAt → Bool
  | .idle | .taking => true
  | _ => false

/-- The callback is going to stop the timer. -/
def CallbackAt.stops : CallbackAt → Bool
  | .writing f _ => f.stops
  | .lookingStop | .stopping => true
  | _ => false

/-- `active` is the timer's. A second start of a running timer is an error that aborts. -/
structure StatusLed where
  current : Pattern := .off
  restartRequested : Bool := false
  step : BitVec 32 := 0
  active : Bool := false
  pins : Colour := setColor false false false
  aborted : Bool := false
  renderers : Renderer → RenderAt := fun _ => .idle
  callback : CallbackAt := .idle

inductive LedInput where
  | render (r : Renderer) (p : Pattern)
  | run (r : Renderer)
  | tick
  | callback
  deriving DecidableEq, Repr

namespace StatusLed

def goto (s : StatusLed) (r : Renderer) (ph : RenderAt) : StatusLed :=
  { s with renderers := Function.update s.renderers r ph }

/-- The next statement of a task in `render`, in `start_timer_if_needed` or in `stop_timer`. -/
def runAt (s : StatusLed) (r : Renderer) : RenderAt → StatusLed
  | .idle => s
  | .storing p => { s with current := p }.goto r (.requesting p)
  | .requesting p =>
    { s with restartRequested := true }.goto r
      (if p = Pattern.off then .clearing [.red, .green, .yellow] else .lookingStart)
  | .clearing [] => s.goto r .lookingStop
  | .clearing (pin :: left) =>
    { s with pins := Function.update s.pins pin false }.goto r (.clearing left)
  | .lookingStop => s.goto r (if s.active = true then .stopping else .idle)
  | .stopping => { s with active := false }.goto r .idle
  | .lookingStart => s.goto r (if s.active = true then .idle else .starting)
  | .starting =>
    if s.active = true then { s with aborted := true } else { s with active := true }.goto r .idle

def run (s : StatusLed) (r : Renderer) : StatusLed := s.runAt r (s.renderers r)

/-- The next statement of `on_tick`. -/
def onTick (s : StatusLed) : StatusLed :=
  match s.callback with
  | .idle => s
  | .taking =>
    { s with
      step := if s.restartRequested = true then 0 else s.step
      restartRequested := false
      callback := .loading }
  | .loading =>
    { s with callback := .writing (frame s.current s.step) [.red, .green, .yellow] }
  | .writing f [] => { s with callback := if f.stops = true then .lookingStop else .counting }
  | .writing f (pin :: left) =>
    { s with pins := Function.update s.pins pin (f.colour pin), callback := .writing f left }
  | .lookingStop => { s with callback := if s.active = true then .stopping else .idle }
  | .stopping => { s with active := false, callback := .idle }
  | .counting => { s with step := s.step + 1, callback := .idle }

/-- `render` enters, a task runs on, the period is up, or the timer task runs on. -/
def next (s : StatusLed) : LedInput → StatusLed
  | .render r p => if s.renderers r = .idle then s.goto r (.storing p) else s
  | .run r => s.run r
  | .tick =>
    match s.active, s.callback with
    | true, .idle => { s with callback := .taking }
    | _, _ => s
  | .callback => s.onTick

def stepLed (s : StatusLed) (a : LedInput) : StatusLed := if s.aborted = true then s else s.next a

/-- No task is in `render`. -/
def Quiet (s : StatusLed) : Prop :=
  s.renderers .ctrl = .idle ∧ s.renderers .rpc = .idle ∧ s.renderers .ota = .idle

instance decidableQuiet (s : StatusLed) : Decidable s.Quiet :=
  inferInstanceAs (Decidable (_ ∧ _ ∧ _))

theorem Quiet.idle {s : StatusLed} (h : s.Quiet) (r : Renderer) : s.renderers r = .idle := by
  cases r with
  | ctrl => exact h.1
  | rpc => exact h.2.1
  | ota => exact h.2.2

/-- A task that enters `render` finds no other in it. -/
def Serial (s : StatusLed) : LedInput → Prop
  | .render _ _ => s.Quiet
  | _ => True

instance decidableSerial (s : StatusLed) (a : LedInput) : Decidable (s.Serial a) :=
  match a with
  | .render _ _ => decidableQuiet s
  | .run _ | .tick | .callback => isTrue trivial

/-- Without turns two tasks both see the timer stopped, and the second start of it aborts. -/
example :
    let as : List LedInput := [.render .ctrl .gateOpen, .render .rpc .faultSlow, .run .ctrl,
      .run .ctrl, .run .ctrl, .run .rpc, .run .rpc, .run .rpc, .run .ctrl, .run .rpc]
    ¬ AllSteps stepLed Serial {} as ∧ (exec stepLed {} as).aborted = true := by decide +kernel

end StatusLed

/-- About the last `render`: the callback had passed its look at the restart request when the
request was made; it was going to stop the timer when the timer was seen running or was started; and
the frames that callbacks have begun since. -/
structure Showing where
  stale : Bool := false
  halting : Bool := false
  shown : List Frame := []

def Showing.noteRun (s : StatusLed) (h : Showing) : RenderAt → Showing
  | .requesting _ => { stale := !s.callback.fresh }
  | .lookingStart => if s.active = true then { h with halting := s.callback.stops } else h
  | .starting => { h with halting := s.callback.stops }
  | _ => h

def Showing.note (s : StatusLed) (a : LedInput) (h : Showing) : Showing :=
  match a with
  | .run r => h.noteRun s (s.renderers r)
  | .callback =>
    match s.callback with
    | .loading => { h with shown := h.shown ++ [frame s.current s.step] }
    | _ => h
  | _ => h

/-- The counter in front of the callbacks of a pattern that runs undisturbed from its first
frame. -/
def Pattern.position (p : Pattern) : ℕ → BitVec 32
  | 0 => 0
  | n + 1 => if (frame p (p.position n)).stops = true then p.position n else p.position n + 1

def Pattern.animation (p : Pattern) (n : ℕ) : Frame := frame p (p.position n)

def Pattern.frames (p : Pattern) (n : ℕ) : List Frame := (List.range n).map p.animation

theorem Pattern.frames_succ (p : Pattern) (n : ℕ) :
    p.frames (n + 1) = p.frames n ++ [p.animation n] := by
  simp [frames, List.range_succ]

theorem Pattern.position_of_stops {p : Pattern} {n : ℕ} (h : (p.animation n).stops = true) :
    p.position (n + 1) = p.position n := if_pos h

theorem Pattern.position_of_counts {p : Pattern} {n : ℕ} (h : (p.animation n).stops = false) :
    p.position (n + 1) = p.position n + 1 :=
  if_neg (by rw [← animation, h]; exact Bool.false_ne_true)

namespace StatusLed
variable {s : StatusLed} {h : Showing} {ph : RenderAt}

/-- The callbacks since the last `render` play its pattern from the first frame. -/
def Playing (s : StatusLed) (shown : List Frame) : Prop :=
  match s.callback with
  | .idle | .taking =>
    ∃ n, shown = s.current.frames n ∧
      (if s.restartRequested = true then 0 else s.step) = s.current.position n ∧
      ∀ k, n = k + 1 → s.pins = (s.current.animation k).colour
  | .loading =>
    ∃ n, shown = s.current.frames n ∧ s.restartRequested = false ∧ s.step = s.current.position n
  | .writing f left =>
    ∃ n, shown = s.current.frames (n + 1) ∧ s.restartRequested = false ∧
      s.step = s.current.position n ∧ f = s.current.animation n ∧
      ∀ pin, pin ∉ left → s.pins pin = f.colour pin
  | .counting =>
    ∃ n, shown = s.current.frames (n + 1) ∧ s.restartRequested = false ∧
      s.step = s.current.position n ∧ s.pins = (s.current.animation n).colour ∧
      (s.current.animation n).stops = false
  | .lookingStop | .stopping =>
    ∃ n, shown = s.current.frames (n + 1) ∧ s.restartRequested = false ∧
      s.step = s.current.position n ∧ s.pins = (s.current.animation n).colour ∧
      (s.current.animation n).stops = true

theorem note_callback (hc : s.callback ≠ .loading) : h.note s .callback = h := by
  unfold Showing.note
  cases hat : s.callback with
  | loading => exact absurd hat hc
  | _ => rfl

/-- Behind a callback that has set the colour of its frame. -/
theorem playing_idle {shown : List Frame} {n : ℕ} (hc : s.callback = .idle)
    (hshown : shown = s.current.frames (n + 1)) (hrestart : s.restartRequested = false)
    (hpos : s.step = s.current.position (n + 1))
    (hpins : s.pins = (s.current.animation n).colour) : s.Playing shown := by
  unfold Playing
  rw [hc]
  refine ⟨n + 1,hshown,?_,?_⟩
  · simp only [hrestart, Bool.false_eq_true, if_false]
    exact hpos
  · rintro k hk
    cases hk
    exact hpins

theorem playing_note_onTick (hplay : s.Playing h.shown) :
    s.onTick.Playing (h.note s .callback).shown := by
  by_cases hloading : s.callback = .loading
  · unfold Playing onTick Showing.note at *
    rw [hloading] at hplay ⊢
    obtain ⟨n,hshown,hrestart,hpos⟩ := hplay
    refine ⟨n,?_,hrestart,hpos,?_,?_⟩
    · rw [Pattern.frames_succ, hshown, hpos]
      rfl
    · rw [hpos]
      rfl
    · intro pin hpin
      cases pin <;> simp at hpin
  rw [note_callback hloading]
  unfold Playing at hplay
  cases hc : s.callback with
  | idle =>
    unfold Playing onTick
    rw [hc] at hplay ⊢
    dsimp only
    rw [hc]
    exact hplay
  | taking =>
    unfold Playing onTick
    rw [hc] at hplay ⊢
    obtain ⟨n,hshown,hpos,_⟩ := hplay
    exact ⟨n,hshown,rfl,hpos⟩
  | loading => exact absurd hc hloading
  | writing f left =>
    rw [hc] at hplay
    obtain ⟨n,hshown,hrestart,hpos,hf,hpins⟩ := hplay
    unfold Playing onTick
    rw [hc]
    cases left with
    | nil =>
      have hcolour : s.pins = f.colour := funext fun pin => hpins pin List.not_mem_nil
      cases hstops : f.stops with
      | true =>
        simp only [hstops, if_true]
        exact ⟨n,hshown,hrestart,hpos,hf ▸ hcolour,hf ▸ hstops⟩
      | false =>
        simp only [hstops, Bool.false_eq_true, if_false]
        exact ⟨n,hshown,hrestart,hpos,hf ▸ hcolour,hf ▸ hstops⟩
    | cons pin left =>
      refine ⟨n,hshown,hrestart,hpos,hf,?_⟩
      intro q hq
      by_cases hpin : q = pin
      · rw [hpin]
        exact Function.update_self pin (f.colour pin) s.pins
      · refine (Function.update_of_ne hpin (f.colour pin) s.pins).trans (hpins q ?_)
        exact List.not_mem_cons_of_ne_of_not_mem hpin hq
  | lookingStop =>
    rw [hc] at hplay
    obtain ⟨n,hshown,hrestart,hpos,hpins,hstops⟩ := hplay
    cases hactive : s.active with
    | true =>
      unfold Playing onTick
      rw [hc]
      simp only [hactive, if_true]
      exact ⟨n,hshown,hrestart,hpos,hpins,hstops⟩
    | false =>
      unfold onTick
      rw [hc]
      simp only [hactive, Bool.false_eq_true, if_false]
      exact playing_idle rfl hshown hrestart (hpos.trans (Pattern.position_of_stops hstops).symm)
        hpins
  | stopping =>
    rw [hc] at hplay
    obtain ⟨n,hshown,hrestart,hpos,hpins,hstops⟩ := hplay
    unfold onTick
    rw [hc]
    exact playing_idle rfl hshown hrestart (hpos.trans (Pattern.position_of_stops hstops).symm)
      hpins
  | counting =>
    rw [hc] at hplay
    obtain ⟨n,hshown,hrestart,hpos,hpins,hcounts⟩ := hplay
    unfold onTick
    rw [hc]
    refine playing_idle rfl hshown hrestart ?_ hpins
    rw [Pattern.position_of_counts hcounts, ← hpos]

/-- What a statement of the callback leaves alone; it can only stop the timer. -/
theorem onTick_frame (s : StatusLed) :
    s.onTick.current = s.current ∧ s.onTick.renderers = s.renderers ∧
      s.onTick.aborted = s.aborted ∧ (s.active = false → s.onTick.active = false) := by
  unfold onTick
  cases hc : s.callback with
  | writing f left => cases left <;> exact ⟨rfl,rfl,rfl,fun h => h⟩
  | stopping => exact ⟨rfl,rfl,rfl,fun _ => rfl⟩
  | _ => exact ⟨rfl,rfl,rfl,fun h => h⟩

/-- Only a callback that is going to stop the timer stops it. -/
theorem callback_stops_of_onTick (hactive : s.active = true) (hstop : s.onTick.active = false) :
    s.callback = .stopping ∧ s.onTick.callback = .idle := by
  unfold onTick at hstop ⊢
  cases hc : s.callback with
  | stopping => exact ⟨rfl,rfl⟩
  | writing f left =>
    rw [hc] at hstop
    cases left <;> exact absurd (hactive.symm.trans hstop) Bool.noConfusion
  | _ =>
    rw [hc] at hstop
    exact absurd (hactive.symm.trans hstop) Bool.noConfusion

/-- A callback that is going to stop the timer stays so until it has; no other one comes to it
under a pattern that never ends. -/
theorem stops_onTick (hrep : s.current.repeats = true) (hactive : s.onTick.active = true) :
    s.onTick.callback.stops = s.callback.stops := by
  unfold onTick at hactive ⊢
  cases hc : s.callback with
  | idle => rw [hc]
  | taking => rfl
  | loading => exact frame_stops_of_repeats hrep s.step
  | writing f left =>
    cases left with
    | nil => cases hstops : f.stops <;> simp [CallbackAt.stops, hstops]
    | cons pin left => rfl
  | lookingStop =>
    rw [hc] at hactive
    have hon : s.active = true := hactive
    simp [CallbackAt.stops, hon]
  | stopping =>
    rw [hc] at hactive
    exact absurd hactive Bool.noConfusion
  | counting => rfl

/-- Under `kOff` every frame is dark. -/
theorem animation_off (n : ℕ) (pin : LedPin) : (Pattern.off.animation n).colour pin = false := by
  cases pin <;> rfl

theorem dark_onTick {shown : List Frame} (hplay : s.Playing shown) (hoff : s.current = .off)
    {pin : LedPin} (hpin : s.pins pin = false) : s.onTick.pins pin = false := by
  unfold Playing at hplay
  unfold onTick
  cases hc : s.callback with
  | writing f left =>
    rw [hc] at hplay
    obtain ⟨n,_,_,_,hf,_⟩ := hplay
    cases left with
    | nil => exact hpin
    | cons q left =>
      by_cases hq : pin = q
      · rw [hq, hf, hoff]
        exact (Function.update_self q _ s.pins).trans (animation_off n q)
      · exact (Function.update_of_ne hq _ s.pins).trans hpin
  | _ => exact hpin

theorem playing_clear {shown : List Frame} (hplay : s.Playing shown) (hoff : s.current = .off)
    (pin : LedPin) : { s with pins := Function.update s.pins pin false }.Playing shown := by
  have hsame {n : ℕ} (h : s.pins = (s.current.animation n).colour) :
      Function.update s.pins pin false = (s.current.animation n).colour := by
    have hfalse : s.pins pin = false := by rw [h, hoff]; exact animation_off n pin
    rw [← h, ← hfalse]
    exact Function.update_eq_self pin s.pins
  unfold Playing at hplay ⊢
  cases hc : s.callback with
  | idle =>
    rw [hc] at hplay
    obtain ⟨n,hshown,hpos,hpins⟩ := hplay
    exact ⟨n,hshown,hpos,fun k hk => hsame (hpins k hk)⟩
  | taking =>
    rw [hc] at hplay
    obtain ⟨n,hshown,hpos,hpins⟩ := hplay
    exact ⟨n,hshown,hpos,fun k hk => hsame (hpins k hk)⟩
  | loading =>
    rw [hc] at hplay
    exact hplay
  | writing f left =>
    rw [hc] at hplay
    obtain ⟨n,hshown,hrestart,hpos,hf,hpins⟩ := hplay
    refine ⟨n,hshown,hrestart,hpos,hf,?_⟩
    intro q hq
    by_cases hpin : q = pin
    · rw [hpin, hf, hoff, animation_off]
      exact Function.update_self pin false s.pins
    · exact (Function.update_of_ne hpin false s.pins).trans (hpins q hq)
  | lookingStop =>
    rw [hc] at hplay
    obtain ⟨n,hshown,hrestart,hpos,hpins,hstops⟩ := hplay
    exact ⟨n,hshown,hrestart,hpos,hsame hpins,hstops⟩
  | stopping =>
    rw [hc] at hplay
    obtain ⟨n,hshown,hrestart,hpos,hpins,hstops⟩ := hplay
    exact ⟨n,hshown,hrestart,hpos,hsame hpins,hstops⟩
  | counting =>
    rw [hc] at hplay
    obtain ⟨n,hshown,hrestart,hpos,hpins,hcounts⟩ := hplay
    exact ⟨n,hshown,hrestart,hpos,hsame hpins,hcounts⟩

end StatusLed

namespace RenderAt

/-- In the branch for `kOff`. -/
def clears : RenderAt → Bool
  | .clearing _ | .lookingStop | .stopping => true
  | _ => false

/-- In the branch for the other patterns. -/
def starts : RenderAt → Bool
  | .lookingStart | .starting => true
  | _ => false

/-- The restart request has been made. -/
def past : RenderAt → Bool
  | .storing _ | .requesting _ => false
  | _ => true

/-- The pins that are still to be cleared. -/
def left : RenderAt → List LedPin
  | .clearing left => left
  | _ => []

end RenderAt

namespace StatusLed
variable {s : StatusLed} {h : Showing} {ph : RenderAt}

/-- What holds while one task is at `ph` and no other is in `render`. -/
structure Rendered (s : StatusLed) (h : Showing) (ph : RenderAt) : Prop where
  clears : ph.clears = true → s.current = .off
  starts : ph.starts = true → s.current ≠ .off
  starting : ph = .starting → s.active = false
  stored : ∀ p, ph = .requesting p → s.current = p
  playing : ph.past = true → h.stale = false → s.Playing h.shown
  dark : ph.past = true → h.stale = false → s.current = .off → ∀ pin, pin ∉ ph.left →
    s.pins pin = false
  stopped : ph = .idle → s.current = .off → s.active = false
  ended : ph = .idle → h.stale = false → s.active = false → s.current ≠ .off →
    s.callback = .idle ∧ ∃ n, h.shown = s.current.frames (n + 1) ∧
      (s.current.animation n).stops = true
  halted : ph = .idle → s.current.repeats = true → h.halting = true → s.active = true →
    s.callback.stops = true
  running : ph = .idle → s.current.repeats = true → h.halting = false →
    s.active = true ∧ s.callback.stops = false

theorem Rendered.onTick (hr : Rendered s h ph) : Rendered s.onTick (h.note s .callback) ph := by
  obtain ⟨hcurrent,_,_,hinactive⟩ := s.onTick_frame
  have hstale : (h.note s .callback).stale = h.stale := by
    unfold Showing.note
    cases s.callback <;> rfl
  have hhalting : (h.note s .callback).halting = h.halting := by
    unfold Showing.note
    cases s.callback <;> rfl
  constructor
  · rw [hcurrent]
    exact hr.clears
  · rw [hcurrent]
    exact hr.starts
  · exact fun hph => hinactive (hr.starting hph)
  · rw [hcurrent]
    exact hr.stored
  · rw [hstale]
    exact fun hpast hfresh => playing_note_onTick (hr.playing hpast hfresh)
  · rw [hstale, hcurrent]
    exact fun hpast hfresh hoff pin hpin =>
      dark_onTick (hr.playing hpast hfresh) hoff (hr.dark hpast hfresh hoff pin hpin)
  · rw [hcurrent]
    exact fun hph hoff => hinactive (hr.stopped hph hoff)
  · rw [hstale, hcurrent]
    intro hph hfresh hstop hoff
    cases hactive : s.active with
    | false =>
      obtain ⟨hc,hend⟩ := hr.ended hph hfresh hactive hoff
      have hstep : s.onTick = s := by rw [StatusLed.onTick, hc]
      have hidle : s.callback ≠ .loading := by rw [hc]; exact CallbackAt.noConfusion
      rw [hstep, note_callback hidle]
      exact ⟨hc,hend⟩
    | true =>
      obtain ⟨hc,hidle⟩ := callback_stops_of_onTick hactive hstop
      have hplay := hr.playing (by rw [hph]; rfl) hfresh
      unfold Playing at hplay
      rw [hc] at hplay
      obtain ⟨n,hshown,_,_,_,hstops⟩ := hplay
      rw [note_callback (by rw [hc]; exact CallbackAt.noConfusion)]
      exact ⟨hidle,n,hshown,hstops⟩
  · rw [hhalting, hcurrent]
    intro hph hrep hhalt hactive
    rw [stops_onTick hrep hactive]
    refine hr.halted hph hrep hhalt ?_
    by_contra hoff
    rw [hinactive (Bool.eq_false_iff.mpr hoff)] at hactive
    exact absurd hactive Bool.noConfusion
  · rw [hhalting, hcurrent]
    intro hph hrep hhalt
    obtain ⟨hactive,hstops⟩ := hr.running hph hrep hhalt
    have hon : s.onTick.active = true := by
      cases hstop : s.onTick.active with
      | true => rfl
      | false =>
        have hc := (callback_stops_of_onTick hactive hstop).1
        rw [hc] at hstops
        exact absurd hstops Bool.noConfusion
    exact ⟨hon,(stops_onTick hrep hon).trans hstops⟩

theorem Rendered.tick (hr : Rendered s h ph) (hactive : s.active = true)
    (hc : s.callback = .idle) : Rendered { s with callback := .taking } h ph := by
  constructor
  · exact hr.clears
  · exact hr.starts
  · exact hr.starting
  · exact hr.stored
  · intro hpast hfresh
    have hplay := hr.playing hpast hfresh
    unfold Playing at hplay ⊢
    rw [hc] at hplay
    exact hplay
  · exact hr.dark
  · exact hr.stopped
  · exact fun _ _ hstop => absurd (hactive.symm.trans hstop) Bool.noConfusion
  · intro hph hrep hhalt hon
    have hstops := hr.halted hph hrep hhalt hon
    rw [hc] at hstops
    exact absurd hstops Bool.noConfusion
  · exact fun hph hrep hhalt => ⟨(hr.running hph hrep hhalt).1,rfl⟩

/-- Where the other tasks are is not part of it. -/
theorem Rendered.goto (hr : Rendered s h ph) (r : Renderer) (at' : RenderAt) :
    Rendered (s.goto r at') h ph :=
  ⟨hr.clears,hr.starts,hr.starting,hr.stored,hr.playing,hr.dark,hr.stopped,hr.ended,hr.halted,
    hr.running⟩

/-- In front of the restart request there is nothing to say about the pattern that ran before. -/
theorem rendered_storing (s : StatusLed) (h : Showing) (p : Pattern) :
    Rendered s h (.storing p) := by
  constructor
  case stored => exact fun _ hph => RenderAt.noConfusion hph
  all_goals exact fun hph => absurd hph (by simp [RenderAt.clears, RenderAt.starts, RenderAt.past])

theorem rendered_requesting (h : Showing) {p : Pattern} (hp : s.current = p) :
    Rendered s h (.requesting p) := by
  constructor
  case stored => exact fun _ hph => RenderAt.requesting.inj hph ▸ hp
  all_goals exact fun hph => absurd hph (by simp [RenderAt.clears, RenderAt.starts, RenderAt.past])

/-- A request that no callback has passed. -/
theorem playing_request (hfresh : s.callback.fresh = true) :
    { s with restartRequested := true }.Playing [] := by
  unfold Playing
  cases hc : s.callback with
  | idle => exact ⟨0,rfl,rfl,fun k hk => Nat.noConfusion hk⟩
  | taking => exact ⟨0,rfl,rfl,fun k hk => Nat.noConfusion hk⟩
  | _ =>
    rw [hc] at hfresh
    exact absurd hfresh Bool.noConfusion

/-- In the branch for `kOff`. -/
theorem rendered_clears (hclears : ph.clears = true) (hoff : s.current = .off)
    (hplay : h.stale = false → s.Playing h.shown)
    (hdark : h.stale = false → ∀ pin, pin ∉ ph.left → s.pins pin = false) : Rendered s h ph := by
  have hidle : ph ≠ .idle := by
    rintro rfl
    exact Bool.noConfusion hclears
  constructor
  case clears => exact fun _ => hoff
  case starts => cases ph <;> first | exact absurd hclears Bool.noConfusion | exact Bool.noConfusion
  case starting =>
    rintro rfl
    exact Bool.noConfusion hclears
  case stored =>
    rintro p rfl
    exact Bool.noConfusion hclears
  case playing => exact fun _ => hplay
  case dark => exact fun _ hfresh _ => hdark hfresh
  all_goals exact fun hph => absurd hph hidle

/-- `render(kOff)` is through. -/
theorem rendered_cleared (hoff : s.current = .off) (hstop : s.active = false)
    (hplay : h.stale = false → s.Playing h.shown)
    (hdark : h.stale = false → ∀ pin, s.pins pin = false) : Rendered s h .idle := by
  have hrep : s.current.repeats = false := by rw [hoff]; rfl
  constructor
  case playing => exact fun _ => hplay
  case dark => exact fun _ hfresh _ pin _ => hdark hfresh pin
  case stopped => exact fun _ _ => hstop
  case ended => exact fun _ _ _ hne => absurd hoff hne
  case halted => exact fun _ h => absurd (hrep.symm.trans h) Bool.noConfusion
  case running => exact fun _ h => absurd (hrep.symm.trans h) Bool.noConfusion
  case stored => exact fun _ hph => RenderAt.noConfusion hph
  case starting => exact fun hph => RenderAt.noConfusion hph
  all_goals exact fun hph => Bool.noConfusion hph

/-- `render` of another pattern is through: the timer was running or has been started. -/
theorem rendered_started (hoff : s.current ≠ .off) (hactive : s.active = true)
    (hhalting : h.halting = s.callback.stops) (hplay : h.stale = false → s.Playing h.shown) :
    Rendered s h .idle := by
  constructor
  case playing => exact fun _ => hplay
  case dark => exact fun _ _ h => absurd h hoff
  case stopped => exact fun _ h => absurd h hoff
  case ended => exact fun _ _ h => absurd (hactive.symm.trans h) Bool.noConfusion
  case halted => exact fun _ _ h _ => hhalting.symm.trans h
  case running => exact fun _ _ h => ⟨hactive,hhalting.symm.trans h⟩
  case stored => exact fun _ hph => RenderAt.noConfusion hph
  case starting => exact fun hph => RenderAt.noConfusion hph
  all_goals exact fun hph => Bool.noConfusion hph

/-- In `start_timer_if_needed`. -/
theorem rendered_starts (hstarts : ph.starts = true) (hoff : s.current ≠ .off)
    (hinactive : ph = .starting → s.active = false)
    (hplay : h.stale = false → s.Playing h.shown) : Rendered s h ph := by
  have hidle : ph ≠ .idle := by
    rintro rfl
    exact Bool.noConfusion hstarts
  constructor
  case clears => cases ph <;> first | exact absurd hstarts Bool.noConfusion | exact Bool.noConfusion
  case starts => exact fun _ => hoff
  case starting => exact hinactive
  case stored =>
    rintro p rfl
    exact Bool.noConfusion hstarts
  case playing => exact fun _ => hplay
  case dark => exact fun _ _ h => absurd h hoff
  all_goals exact fun hph => absurd hph hidle

/-- A statement of the one task that is in `render`. -/
theorem Rendered.runAt {r : Renderer} (hr : Rendered s h ph) (hph : s.renderers r = ph) :
    ∃ ph', (s.runAt r ph).renderers = Function.update s.renderers r ph' ∧
      (s.runAt r ph).aborted = s.aborted ∧ Rendered (s.runAt r ph) (h.noteRun s ph) ph' := by
  cases ph with
  | idle => exact ⟨.idle,(Function.update_eq_self_iff.mpr hph.symm).symm,rfl,hr⟩
  | storing p =>
    exact ⟨.requesting p,rfl,rfl,
      Rendered.goto (s:={ s with current := p }) (rendered_requesting h rfl) r _⟩
  | requesting p =>
    have hcurrent := hr.stored p rfl
    have hplay : (!s.callback.fresh) = false → { s with restartRequested := true }.Playing [] := by
      intro hfresh
      rw [Bool.not_eq_false'] at hfresh
      exact playing_request hfresh
    refine ⟨_,rfl,rfl,Rendered.goto (s:={ s with restartRequested := true }) ?_ r _⟩
    by_cases hoff : p = .off
    · rw [if_pos hoff]
      refine rendered_clears rfl (hcurrent.trans hoff) hplay ?_
      intro _ pin hpin
      cases pin <;> simp [RenderAt.left] at hpin
    · rw [if_neg hoff]
      exact rendered_starts rfl (hcurrent ▸ hoff) RenderAt.noConfusion hplay
  | clearing left =>
    have hoff := hr.clears rfl
    cases left with
    | nil =>
      refine ⟨.lookingStop,rfl,rfl,Rendered.goto ?_ r _⟩
      exact rendered_clears rfl hoff (hr.playing rfl) fun hfresh => hr.dark rfl hfresh hoff
    | cons pin left =>
      refine ⟨_,rfl,rfl,Rendered.goto (s:={ s with pins := Function.update s.pins pin false })
        (rendered_clears rfl hoff
          (fun hfresh => playing_clear (hr.playing rfl hfresh) hoff pin) ?_) r _⟩
      intro hfresh q hq
      by_cases hpin : q = pin
      · rw [hpin]
        exact Function.update_self pin false s.pins
      · refine (Function.update_of_ne hpin false s.pins).trans (hr.dark rfl hfresh hoff q ?_)
        exact List.not_mem_cons_of_ne_of_not_mem hpin hq
  | lookingStop =>
    have hoff := hr.clears rfl
    have hdark := fun hfresh pin => hr.dark rfl hfresh hoff pin List.not_mem_nil
    refine ⟨_,rfl,rfl,Rendered.goto ?_ r _⟩
    by_cases hactive : s.active = true
    · rw [if_pos hactive]
      exact rendered_clears rfl hoff (hr.playing rfl) fun hfresh pin _ => hdark hfresh pin
    · rw [if_neg hactive]
      exact rendered_cleared hoff (Bool.eq_false_iff.mpr hactive) (hr.playing rfl) hdark
  | stopping =>
    have hoff := hr.clears rfl
    have hdark := fun hfresh pin => hr.dark rfl hfresh hoff pin List.not_mem_nil
    exact ⟨_,rfl,rfl,Rendered.goto (s:={ s with active := false })
      (rendered_cleared hoff rfl (hr.playing rfl) hdark) r _⟩
  | lookingStart =>
    have hoff := hr.starts rfl
    refine ⟨_,rfl,rfl,Rendered.goto ?_ r _⟩
    unfold Showing.noteRun
    by_cases hactive : s.active = true
    · rw [if_pos hactive, if_pos hactive]
      exact rendered_started hoff hactive rfl (hr.playing rfl)
    · rw [if_neg hactive, if_neg hactive]
      exact rendered_starts rfl hoff (fun _ => Bool.eq_false_iff.mpr hactive) (hr.playing rfl)
  | starting =>
    have hoff := hr.starts rfl
    have hinactive : ¬ s.active = true := by rw [hr.starting rfl]; exact Bool.false_ne_true
    have hstep : s.runAt r .starting = { s with active := true }.goto r .idle := if_neg hinactive
    rw [hstep]
    refine ⟨.idle,rfl,rfl,Rendered.goto (s:={ s with active := true }) ?_ r _⟩
    exact rendered_started hoff rfl rfl (hr.playing rfl)

/-- At most one task is in `render`, and nothing has gone wrong. -/
def InTurn (s : StatusLed) (h : Showing) : Prop :=
  s.aborted = false ∧ ∃ r ph, s.renderers = Function.update (fun _ => .idle) r ph ∧ Rendered s h ph

theorem inTurn_boot : InTurn {} {} := by
  refine ⟨rfl,.ctrl,.idle,(Function.update_eq_self Renderer.ctrl _).symm,
    rendered_cleared rfl rfl ?_ ?_⟩
  · exact fun _ => ⟨0,rfl,rfl,fun k hk => Nat.noConfusion hk⟩
  · exact fun _ pin => by cases pin <;> rfl

theorem InTurn.next {a : LedInput} (ht : InTurn s h) (hserial : s.Serial a) :
    InTurn (s.next a) (h.note s a) := by
  obtain ⟨hsound,r,ph,hrenderers,hr⟩ := ht
  cases a with
  | render q p =>
    have hidle : s.renderers = fun _ => .idle := funext (Quiet.idle hserial)
    have hstep : s.next (.render q p) = s.goto q (.storing p) := if_pos (congrFun hidle q)
    rw [hstep]
    refine ⟨hsound,q,.storing p,?_,(rendered_storing s h p).goto q _⟩
    unfold StatusLed.goto
    rw [hidle]
  | run q =>
    by_cases hq : q = r
    · have hph : s.renderers r = ph := by rw [hrenderers, Function.update_self]
      obtain ⟨ph',hrenderers',haborted,hr'⟩ := hr.runAt hph
      have hstep : s.next (.run r) = s.runAt r (s.renderers r) := rfl
      have hnote : h.note s (.run r) = h.noteRun s (s.renderers r) := rfl
      rw [hq, hstep, hnote, hph]
      refine ⟨haborted.trans hsound,r,ph',?_,hr'⟩
      rw [hrenderers', hrenderers, Function.update_idem]
    · have hidle : s.renderers q = .idle := by rw [hrenderers, Function.update_of_ne hq]
      have hstep : s.next (.run q) = s.runAt q (s.renderers q) := rfl
      have hnote : h.note s (.run q) = h.noteRun s (s.renderers q) := rfl
      rw [hstep, hnote, hidle]
      exact ⟨hsound,r,ph,hrenderers,hr⟩
  | tick =>
    unfold StatusLed.next Showing.note
    dsimp only
    split
    next hactive hc => exact ⟨hsound,r,ph,hrenderers,hr.tick hactive hc⟩
    next => exact ⟨hsound,r,ph,hrenderers,hr⟩
  | callback =>
    obtain ⟨_,hsame,haborted,_⟩ := s.onTick_frame
    exact ⟨haborted.trans hsound,r,ph,hsame.trans hrenderers,hr.onTick⟩

theorem inTurn_exec {as : List LedInput} (hserial : AllSteps stepLed Serial {} as) :
    InTurn (exec stepLed {} as) (exec (observe stepLed Showing.note) ({},{}) as).2 := by
  have hstep (p : StatusLed × Showing) (a : LedInput) (hserial : p.1.Serial a)
      (ht : InTurn p.1 p.2) : InTurn (p.1.stepLed a) (p.2.note p.1 a) := by
    have hnext : p.1.stepLed a = p.1.next a := if_neg (by rw [ht.1]; exact Bool.false_ne_true)
    rw [hnext]
    exact ht.next hserial
  have hrun := exec_invariant_of (I:=fun p : StatusLed × Showing => InTurn p.1 p.2) hstep
    (AllSteps.observe (p:=({},{})) Showing.note hserial) inTurn_boot
  rw [exec_observe_fst] at hrun
  exact hrun

theorem InTurn.rendered (ht : InTurn s h) (hquiet : s.Quiet) : Rendered s h .idle := by
  obtain ⟨_,r,ph,hrenderers,hr⟩ := ht
  have hph : s.renderers r = ph := by rw [hrenderers, Function.update_self]
  have hidle : ph = .idle := hph.symm.trans (hquiet.idle r)
  exact hidle ▸ hr

/-- With the timer stopped and nothing in progress only another `render` changes anything. -/
theorem exec_of_stopped (hquiet : s.Quiet) (hc : s.callback = .idle) (hstop : s.active = false)
    {bs : List LedInput} (hbs : ∀ r p, .render r p ∉ bs) : exec stepLed s bs = s := by
  induction bs with
  | nil => rfl
  | cons b bs ih =>
    have hstep : s.next b = s := by
      cases b with
      | render r p => exact absurd List.mem_cons_self (hbs r p)
      | run r => rw [next, run, hquiet.idle r, runAt]
      | tick => rw [next, hstop]
      | callback => rw [next, onTick, hc]
    rw [exec_cons, stepLed, hstep, ite_self]
    exact ih fun r p hmem => hbs r p (List.mem_cons_of_mem b hmem)

/-- The last `render` is shown from its first frame on if no callback had passed the restart
request, and a pattern that never ends runs unless a callback was about to stop the timer; then the
LED stays as it is. -/
theorem render_shown_unless_overtaken (as : List LedInput)
    (hserial : AllSteps stepLed Serial {} as) :
    let s := exec stepLed {} as
    let h := (exec (observe stepLed Showing.note) ({},{}) as).2
    s.aborted = false ∧ (s.Quiet → s.callback = .idle →
      (h.stale = false →
        h.shown = s.current.frames h.shown.length ∧ (∀ f ∈ h.shown.getLast?, s.pins = f.colour) ∧
        (s.current = .off → s.pins = setColor false false false) ∧
        (s.active = false → s.current ≠ .off → ∃ f ∈ h.shown.getLast?, f.stops = true)) ∧
      (s.current.repeats = true → (s.active = true ↔ h.halting = false)) ∧
      (s.active = false → ∀ bs, (∀ r p, .render r p ∉ bs) → exec stepLed s bs = s)) := by
  intro s h
  have hturn : InTurn s h := inTurn_exec hserial
  refine ⟨hturn.1,?_⟩
  intro hquiet hc
  have hr := hturn.rendered hquiet
  refine ⟨?_,?_,fun hstop bs hbs => exec_of_stopped hquiet hc hstop hbs⟩
  · intro hfresh
    have hplay := hr.playing rfl hfresh
    unfold Playing at hplay
    rw [hc] at hplay
    obtain ⟨n,hshown,_,hpins⟩ := hplay
    have hlength : h.shown.length = n := by simp [hshown, Pattern.frames]
    have hlast {k : ℕ} : (s.current.frames (k + 1)).getLast? = some (s.current.animation k) := by
      rw [Pattern.frames_succ, List.getLast?_concat]
    refine ⟨by rw [hlength]; exact hshown,?_,?_,?_⟩
    · intro f hf
      cases n with
      | zero =>
        rw [hshown] at hf
        exact absurd hf (Option.not_mem_none f)
      | succ k =>
        rw [hshown, hlast, Option.mem_some_iff] at hf
        rw [← hf]
        exact hpins k rfl
    · intro hoff
      funext pin
      rw [hr.dark rfl hfresh hoff pin List.not_mem_nil]
      cases pin <;> rfl
    · intro hstop hoff
      obtain ⟨_,k,hk,hstops⟩ := hr.ended rfl hfresh hstop hoff
      exact ⟨s.current.animation k,by rw [hk, hlast]; rfl,hstops⟩
  · intro hrep
    constructor
    · intro hactive
      by_contra hhalt
      have hstops := hr.halted rfl hrep (Bool.of_not_eq_false hhalt) hactive
      rw [hc] at hstops
      exact absurd hstops Bool.noConfusion
    · exact fun hhalt => (hr.running rfl hrep hhalt).1

/-- The gate opens, and a fault comes while the callback for steady green is about to stop the
timer. -/
def faultBehindOpen : List LedInput :=
  [.render .ctrl .gateOpen, .run .ctrl, .run .ctrl, .run .ctrl, .run .ctrl, .tick, .callback,
    .callback, .callback, .callback, .callback, .callback, .callback, .render .ctrl .faultSlow,
    .run .ctrl, .run .ctrl, .run .ctrl, .callback]

/-- The fault is never shown: the LED stays green as for an open gate. -/
theorem render_shown_unless_overtaken_fault :
    let s := exec stepLed {} faultBehindOpen
    s.current = .faultSlow ∧ s.pins = setColor false true false ∧
      ∀ bs, (∀ r p, .render r p ∉ bs) → exec stepLed s bs = s := by
  have hshown := render_shown_unless_overtaken faultBehindOpen (by decide +kernel)
  refine ⟨rfl,?_,(hshown.2 (by decide +kernel) rfl).2.2 rfl⟩
  funext pin
  cases pin <;> rfl

end StatusLed
end AlprGate.Drivers
