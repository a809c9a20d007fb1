import AlprGate.Library.Backoff
import AlprGate.Library.Progress

/-! # Stopping the event stream

`stop` raises a flag, cancels the call that is registered, wakes the thread from its backoff and
joins it. The thread registers a call after it has looked at the flag, so the cancellation can come
between the two: then the thread opens a stream that nobody cancels, does not read from it because of
the flag, and waits for the server to end it.
-/
namespace AlprGate.DashApi
open Transition

structure EventStreamConfig where
  reconnectMinMs : BitVec 32 := 1000
  reconnectMaxMs : BitVec 32 := 30000
  deriving DecidableEq, Repr

/-- Where `run` is. In `blocked` it is in `Read`, in `finishing` in `Finish`; between `dozing` and
`sleeping` it has looked at the flag for `wait_for` and is not waiting yet. -/
inductive RunAt where
  | head
  | registering
  | reading
  | blocked
  | finishing
  | finished
  | deciding
  | dozing
  | nodding
  | sleeping (left : ℕ)
  | exited
  deriving DecidableEq, Repr

/-- Where `stop` is. -/
inductive StopAt where
  | outside
  | raised
  | cancelled
  | joining
  deriving DecidableEq, Repr

/-- A call is registered while the thread reads or finishes. -/
def RunAt.registered : RunAt → Bool
  | .reading | .blocked | .finishing | .finished => true
  | _ => false

/-- Neither in `Read` nor waiting. -/
def RunAt.calm : RunAt → Bool
  | .blocked | .sleeping _ => false
  | _ => true

/-- The turns that the thread takes before it is at the head of its loop, asleep or gone. -/
def RunAt.turns : RunAt → ℕ
  | .head | .sleeping _ | .exited => 0
  | .deciding | .dozing | .nodding => 1
  | .finished => 2
  | .finishing => 3
  | .registering | .reading | .blocked => 4

theorem RunAt.turns_le (r : RunAt) : r.turns ≤ 4 := by
  cases r with
  | sleeping left => exact Nat.zero_le 4
  | _ => decide

/-- `stop` has been through its locked section. -/
def StopAt.past : StopAt → Bool
  | .cancelled | .joining => true
  | _ => false

/-- `cancelled` and `ended` are about the call in progress: it has been cancelled, and its stream has
ended or broken. -/
structure EventStream where
  joinable : Bool := false
  stopRequested : Bool := false
  activeCtx : Bool := false
  cancelled : Bool := false
  ended : Bool := false
  backoffMs : BitVec 32
  thread : RunAt := .exited
  stopper : StopAt := .outside
  deriving DecidableEq, Repr

inductive StreamStep where
  | start
  | stop
  | run
  | event
  | ended
  | elapse (ms : ℕ)
  deriving DecidableEq, Repr

namespace EventStream

/-- `wait_for` returns. -/
def wakes (cfg : EventStreamConfig) (s : EventStream) : EventStream :=
  { s with backoffMs := Backoff.next cfg.reconnectMaxMs s.backoffMs, thread := .head }

def start (cfg : EventStreamConfig) (s : EventStream) : EventStream :=
  if s.stopper = .outside ∧ s.joinable = false then
    { s with
      joinable := true
      stopRequested := false
      backoffMs := cfg.reconnectMinMs
      thread := .head }
  else s

/-- The next statement of `stop`. A waiting thread that is notified finds the flag raised. -/
def stop (cfg : EventStreamConfig) (s : EventStream) : EventStream :=
  match s.stopper with
  | .outside =>
    if s.joinable = true then { s with stopRequested := true, stopper := .raised } else s
  | .raised => { s with cancelled := s.cancelled || s.activeCtx, stopper := .cancelled }
  | .cancelled =>
    match s.thread with
    | .sleeping _ => { s.wakes cfg with stopper := .joining }
    | _ => { s with stopper := .joining }
  | .joining =>
    if s.thread = .exited then { s with joinable := false, stopper := .outside } else s

/-- The next statement of the thread. `Read` and `Finish` return once the call is over. -/
def run (cfg : EventStreamConfig) (s : EventStream) : EventStream :=
  match s.thread with
  | .head => { s with thread := if s.stopRequested = true then .exited else .registering }
  | .registering =>
    { s with activeCtx := true, cancelled := false, ended := false, thread := .reading }
  | .reading => { s with thread := if s.stopRequested = true then .finishing else .blocked }
  | .blocked => if s.cancelled = true ∨ s.ended = true then { s with thread := .finishing } else s
  | .finishing => if s.cancelled = true ∨ s.ended = true then { s with thread := .finished } else s
  | .finished => { s with activeCtx := false, thread := .deciding }
  | .deciding => { s with thread := if s.stopRequested = true then .exited else .dozing }
  | .dozing => if s.stopRequested = true then s.wakes cfg else { s with thread := .nodding }
  | .nodding => { s with thread := .sleeping s.backoffMs.toNat }
  | .sleeping _ => s
  | .exited => s

/-- `Read` returns an event, which resets the backoff. -/
def event (cfg : EventStreamConfig) (s : EventStream) : EventStream :=
  if s.thread = .blocked then { s with backoffMs := cfg.reconnectMinMs, thread := .reading } else s

def elapse (cfg : EventStreamConfig) (s : EventStream) (ms : ℕ) : EventStream :=
  match s.thread with
  | .sleeping left => if left ≤ ms then s.wakes cfg else { s with thread := .sleeping (left - ms) }
  | _ => s

def step (cfg : EventStreamConfig) (s : EventStream) : StreamStep → EventStream
  | .start => s.start cfg
  | .stop => s.stop cfg
  | .run => s.run cfg
  | .event => s.event cfg
  | .ended => { s with ended := true }
  | .elapse ms => s.elapse cfg ms

def fresh (cfg : EventStreamConfig) : EventStream := { backoffMs := cfg.reconnectMinMs }

/-- The thread is about to open a stream that `stop` has not seen, or has opened one. -/
def Missed (s : EventStream) : Prop :=
  s.thread = .registering ∨
    (s.thread = .reading ∨ s.thread = .finishing) ∧ s.cancelled = false ∧ s.ended = false

instance (s : EventStream) : Decidable s.Missed := inferInstanceAs (Decidable (_ ∨ _))

variable {cfg : EventStreamConfig} {s : EventStream}

/-! ### Invariants -/

/-- While `stop` runs the flag is up; a thread in `Read` behind the locked section has been
cancelled, and no sleep is longer than the largest backoff. -/
structure Orderly (cfg : EventStreamConfig) (s : EventStream) : Prop where
  active : s.activeCtx = s.thread.registered
  flag : s.stopper ≠ .outside → s.stopRequested = true
  caught : s.thread = .blocked → s.stopper.past = true → s.cancelled = true
  backoff : s.backoffMs ≤ cfg.reconnectMaxMs
  sleep : ∀ left, s.thread = .sleeping left → left ≤ cfg.reconnectMaxMs.toNat
  gone : s.joinable = false → s.thread = .exited

section Moves
variable (h : Orderly cfg s) {b c : RunAt} (hthread : s.thread = b) (hb : b ≠ .exited)
include h hthread hb

theorem Orderly.joinable_of_thread : s.joinable ≠ false := by
  intro hjoinable
  exact hb (hthread.symm.trans (h.gone hjoinable))

/-- The thread moves without touching its call. -/
theorem Orderly.goto (hregistered : c.registered = b.registered)
    (hcaught : c = .blocked → s.stopper.past = true → s.cancelled = true)
    (hsleep : ∀ left, c = .sleeping left → left ≤ cfg.reconnectMaxMs.toNat) :
    Orderly cfg { s with thread := c } := by
  refine ⟨?_,h.flag,hcaught,h.backoff,hsleep,fun hjoinable => ?_⟩
  · rw [h.active, hthread, hregistered]
  · exact absurd hjoinable (h.joinable_of_thread hthread hb)

theorem Orderly.pass (hregistered : c.registered = b.registered)
    (hcalm : c.calm = true) : Orderly cfg { s with thread := c } := by
  refine h.goto hthread hb hregistered ?_ ?_
  · rintro rfl
    cases hcalm
  · rintro left rfl
    cases hcalm

theorem Orderly.wakes (hregistered : b.registered = false) : Orderly cfg (s.wakes cfg) := by
  refine ⟨?_,h.flag,fun hblocked => RunAt.noConfusion hblocked,Backoff.next_le s.backoffMs,
    fun _ hsleep => RunAt.noConfusion hsleep,fun hjoinable => ?_⟩
  · exact h.active.trans (by rw [hthread, hregistered]; rfl)
  · exact absurd hjoinable (h.joinable_of_thread hthread hb)

/-- The thread registers its call or lets go of it. -/
theorem Orderly.call (hcalm : c.calm = true) (cancelled ended : Bool) :
    Orderly cfg { s with
      activeCtx := c.registered, cancelled := cancelled, ended := ended, thread := c } := by
  refine ⟨rfl,h.flag,?_,h.backoff,?_,fun hjoinable => ?_⟩
  · rintro rfl
    cases hcalm
  · rintro left rfl
    cases hcalm
  · exact absurd hjoinable (h.joinable_of_thread hthread hb)

end Moves

theorem Orderly.run (h : Orderly cfg s) : Orderly cfg (s.run cfg) := by
  unfold EventStream.run
  cases hthread : s.thread with
  | head =>
    refine h.pass hthread RunAt.noConfusion ?_ ?_
    · split <;> rfl
    · split <;> rfl
  | registering => exact h.call hthread RunAt.noConfusion (c:=.reading) rfl false false
  | reading =>
    refine h.goto hthread RunAt.noConfusion ?_ ?_ ?_
    · split <;> rfl
    · intro hblocked hpast
      -- The flag is up once `stop` is behind its locked section, so the thread does not read.
      have hflag : s.stopRequested = true := by
        refine h.flag fun hout => ?_
        rw [hout] at hpast
        cases hpast
      rw [if_pos hflag] at hblocked
      cases hblocked
    · intro left hsleep
      split at hsleep
      · cases hsleep
      · cases hsleep
  | blocked =>
    dsimp only
    split
    · exact h.pass hthread RunAt.noConfusion rfl rfl
    · exact h
  | finishing =>
    dsimp only
    split
    · exact h.pass hthread RunAt.noConfusion rfl rfl
    · exact h
  | finished => exact h.call hthread RunAt.noConfusion (c:=.deciding) rfl s.cancelled s.ended
  | deciding =>
    refine h.pass hthread RunAt.noConfusion ?_ ?_
    · split <;> rfl
    · split <;> rfl
  | dozing =>
    dsimp only
    split
    · exact h.wakes hthread RunAt.noConfusion rfl
    · exact h.pass hthread RunAt.noConfusion rfl rfl
  | nodding =>
    refine h.goto hthread RunAt.noConfusion rfl (fun hblocked => RunAt.noConfusion hblocked) ?_
    intro left hsleep
    rw [← RunAt.sleeping.inj hsleep]
    exact BitVec.le_def.mp h.backoff
  | sleeping left => exact h
  | exited => exact h

theorem Orderly.stop (h : Orderly cfg s) : Orderly cfg (s.stop cfg) := by
  unfold EventStream.stop
  cases hstopper : s.stopper with
  | outside =>
    dsimp only
    split
    · exact ⟨h.active,fun _ => rfl,fun _ hpast => Bool.noConfusion hpast,h.backoff,h.sleep,h.gone⟩
    · exact h
  | raised =>
    have hflag := h.flag (by rw [hstopper]; exact StopAt.noConfusion)
    refine ⟨h.active,fun _ => hflag,fun hblocked _ => ?_,h.backoff,h.sleep,h.gone⟩
    have hactive : s.activeCtx = true := by
      rw [h.active, hblocked]
      rfl
    change (s.cancelled || s.activeCtx) = true
    rw [hactive, Bool.or_true]
  | cancelled =>
    have hflag := h.flag (by rw [hstopper]; exact StopAt.noConfusion)
    have hcaught : s.thread = .blocked → s.cancelled = true :=
      fun hblocked => h.caught hblocked (by rw [hstopper]; rfl)
    dsimp only
    split
    · rename_i hthread
      have hwakes := h.wakes hthread RunAt.noConfusion rfl
      exact ⟨hwakes.active,fun _ => hflag,fun hblocked => RunAt.noConfusion hblocked,hwakes.backoff,
        hwakes.sleep,hwakes.gone⟩
    · exact ⟨h.active,fun _ => hflag,fun hblocked _ => hcaught hblocked,h.backoff,h.sleep,h.gone⟩
  | joining =>
    dsimp only
    split
    · rename_i hexited
      exact ⟨h.active,fun hout => absurd rfl hout,fun _ hpast => Bool.noConfusion hpast,h.backoff,
        h.sleep,fun _ => hexited⟩
    · exact h

theorem Orderly.step (hle : cfg.reconnectMinMs ≤ cfg.reconnectMaxMs) (h : Orderly cfg s)
    (a : StreamStep) : Orderly cfg (s.step cfg a) := by
  cases a with
  | start =>
    refine iteInduction (motive:=Orderly cfg) (fun hidle => ?_) fun _ => h
    have hexited := h.gone hidle.2
    refine ⟨?_,fun hout => absurd hidle.1 hout,fun hblocked => RunAt.noConfusion hblocked,hle,
      fun _ hsleep => RunAt.noConfusion hsleep,fun hjoinable => Bool.noConfusion hjoinable⟩
    exact h.active.trans (by rw [hexited]; rfl)
  | stop => exact h.stop
  | run => exact h.run
  | event =>
    refine iteInduction (motive:=Orderly cfg) (fun hblocked => ?_) fun _ => h
    have hnext := h.pass (c:=.reading) hblocked RunAt.noConfusion rfl rfl
    exact ⟨hnext.active,hnext.flag,hnext.caught,hle,hnext.sleep,hnext.gone⟩
  | ended => exact ⟨h.active,h.flag,h.caught,h.backoff,h.sleep,h.gone⟩
  | elapse ms =>
    change Orderly cfg (s.elapse cfg ms)
    unfold elapse
    split
    · rename_i left hthread
      split
      · exact h.wakes hthread RunAt.noConfusion rfl
      · refine h.goto hthread RunAt.noConfusion rfl (fun hblocked => RunAt.noConfusion hblocked) ?_
        intro rest hrest
        rw [← RunAt.sleeping.inj hrest]
        exact (Nat.sub_le _ _).trans (h.sleep left hthread)
    · exact h

theorem orderly_fresh (hle : cfg.reconnectMinMs ≤ cfg.reconnectMaxMs) : Orderly cfg (fresh cfg) :=
  ⟨rfl,fun hout => absurd rfl hout,fun hblocked => RunAt.noConfusion hblocked,hle,
    fun _ hsleep => RunAt.noConfusion hsleep,fun _ => rfl⟩

/-! ### The stream that nobody cancels -/

/-- `stop` waits for a thread that waits for the server. -/
structure Hangs (s : EventStream) : Prop where
  stopper : s.stopper = .joining
  flag : s.stopRequested = true
  missed : s.Missed

theorem Hangs.thread (h : Hangs s) :
    s.thread = .registering ∨ s.thread = .reading ∨ s.thread = .finishing := by
  rcases h.missed with hthread | ⟨hthread | hthread,-⟩
  · exact Or.inl hthread
  · exact Or.inr (Or.inl hthread)
  · exact Or.inr (Or.inr hthread)

theorem Hangs.run (h : Hangs s) : Hangs (s.run cfg) := by
  have hmissed := h.missed
  unfold EventStream.run
  rcases hmissed with hthread | ⟨hthread | hthread,hcancelled,hover⟩
  · rw [hthread]
    exact ⟨h.stopper,h.flag,Or.inr ⟨Or.inl rfl,rfl,rfl⟩⟩
  · rw [hthread]
    refine ⟨h.stopper,h.flag,Or.inr ⟨Or.inr ?_,hcancelled,hover⟩⟩
    exact if_pos h.flag
  · rw [hthread]
    dsimp only
    rw [if_neg (by rw [hcancelled, hover]; decide)]
    exact h

theorem Hangs.step (h : Hangs s) {a : StreamStep} (ha : a ≠ .ended) : Hangs (s.step cfg a) := by
  have hthread := h.thread
  cases a with
  | start =>
    rw [EventStream.step, EventStream.start, h.stopper, if_neg fun hout => StopAt.noConfusion hout.1]
    exact h
  | stop =>
    rw [EventStream.step, EventStream.stop, h.stopper]
    dsimp only
    rw [if_neg]
    · exact h
    · intro hexited
      rw [hexited] at hthread
      rcases hthread with hthread | hthread | hthread <;> cases hthread
  | run => exact h.run
  | event =>
    rw [EventStream.step, EventStream.event, if_neg]
    · exact h
    · intro hblocked
      rw [hblocked] at hthread
      rcases hthread with hthread | hthread | hthread <;> cases hthread
  | ended => exact absurd rfl ha
  | elapse ms =>
    rw [EventStream.step, EventStream.elapse]
    split
    · rename_i hsleep
      rw [hsleep] at hthread
      rcases hthread with hthread | hthread | hthread <;> cases hthread
    · exact h

/-! ### Every other stop -/

/-- The thread is on its way out: its call is over or cancelled. -/
structure Leaving (cfg : EventStreamConfig) (s : EventStream) : Prop where
  orderly : Orderly cfg s
  flag : s.stopRequested = true
  stopper : s.stopper = .joining ∨ s.stopper = .outside ∧ s.joinable = false
  seen : ¬ s.Missed

theorem Leaving.ended (h : Leaving cfg s) (hthread : s.thread = .reading ∨ s.thread = .finishing) :
    s.cancelled = true ∨ s.ended = true := by
  by_contra hopen
  push Not at hopen
  exact h.seen (Or.inr ⟨hthread,Bool.eq_false_of_not_eq_true hopen.1,
    Bool.eq_false_of_not_eq_true hopen.2⟩)

theorem Leaving.caught (h : Leaving cfg s) (hthread : s.thread = .blocked) : s.cancelled = true := by
  rcases h.stopper with hstopper | ⟨-,hjoinable⟩
  · exact h.orderly.caught hthread (by rw [hstopper]; rfl)
  · exact absurd ((h.orderly.gone hjoinable).symm.trans hthread) RunAt.noConfusion

theorem not_missed_of_thread (h : s.thread.registered = false) (hthread : s.thread ≠ .registering) :
    ¬ s.Missed := by
  rintro (hregistering | ⟨hreading | hfinishing,-⟩)
  · exact hthread hregistering
  · rw [hreading] at h
    cases h
  · rw [hfinishing] at h
    cases h

theorem not_missed_of_ended (hthread : s.thread ≠ .registering)
    (hended : s.cancelled = true ∨ s.ended = true) : ¬ s.Missed := by
  rintro (hregistering | ⟨-,hcancelled,hover⟩)
  · exact hthread hregistering
  · rw [hcancelled, hover] at hended
    exact hended.elim Bool.noConfusion Bool.noConfusion

theorem run_frame (cfg : EventStreamConfig) (s : EventStream) :
    (s.run cfg).stopRequested = s.stopRequested ∧ (s.run cfg).stopper = s.stopper ∧
      (s.run cfg).joinable = s.joinable := by
  unfold EventStream.run
  cases s.thread with
  | blocked | finishing | dozing =>
    dsimp only
    split
    · exact ⟨rfl,rfl,rfl⟩
    · exact ⟨rfl,rfl,rfl⟩
  | _ => exact ⟨rfl,rfl,rfl⟩

theorem Leaving.run_thread (h : Leaving cfg s) :
    ¬ (s.run cfg).Missed ∧ (s.run cfg).thread.turns ≤ s.thread.turns - 1 := by
  unfold EventStream.run
  cases hthread : s.thread with
  | head =>
    dsimp only
    rw [if_pos h.flag]
    exact ⟨not_missed_of_thread rfl RunAt.noConfusion,Nat.le_refl 0⟩
  | registering => exact absurd (Or.inl hthread) h.seen
  | reading =>
    dsimp only
    rw [if_pos h.flag]
    exact ⟨not_missed_of_ended RunAt.noConfusion (h.ended (Or.inl hthread)),Nat.le_refl 3⟩
  | blocked =>
    dsimp only
    rw [if_pos (Or.inl (h.caught hthread))]
    exact ⟨not_missed_of_ended RunAt.noConfusion (Or.inl (h.caught hthread)),Nat.le_refl 3⟩
  | finishing =>
    dsimp only
    rw [if_pos (h.ended (Or.inr hthread))]
    exact ⟨not_missed_of_ended RunAt.noConfusion (h.ended (Or.inr hthread)),Nat.le_refl 2⟩
  | finished => exact ⟨not_missed_of_thread rfl RunAt.noConfusion,Nat.le_refl 1⟩
  | deciding =>
    dsimp only
    rw [if_pos h.flag]
    exact ⟨not_missed_of_thread rfl RunAt.noConfusion,Nat.le_refl 0⟩
  | dozing =>
    dsimp only
    rw [if_pos h.flag]
    exact ⟨not_missed_of_thread rfl RunAt.noConfusion,Nat.le_refl 0⟩
  | nodding => exact ⟨not_missed_of_thread rfl RunAt.noConfusion,Nat.le_refl 0⟩
  | sleeping left =>
    dsimp only
    rw [hthread]
    exact ⟨h.seen,Nat.le_refl 0⟩
  | exited =>
    dsimp only
    rw [hthread]
    exact ⟨h.seen,Nat.le_refl 0⟩

theorem Leaving.run (h : Leaving cfg s) :
    Leaving cfg (s.run cfg) ∧ (s.run cfg).thread.turns ≤ s.thread.turns - 1 := by
  obtain ⟨hflag,hstopper,hjoinable⟩ := run_frame cfg s
  obtain ⟨hseen,hturns⟩ := h.run_thread
  refine ⟨⟨h.orderly.run,hflag.trans h.flag,?_,hseen⟩,hturns⟩
  rw [hstopper, hjoinable]
  exact h.stopper

theorem Leaving.stop (h : Leaving cfg s) :
    Leaving cfg (s.stop cfg) ∧ (s.stop cfg).thread.turns ≤ s.thread.turns := by
  have horderly := h.orderly.stop
  unfold EventStream.stop at horderly ⊢
  rcases h.stopper with hstopper | ⟨hstopper,hjoinable⟩
  · rw [hstopper] at horderly ⊢
    dsimp only at horderly ⊢
    split
    · rename_i hexited
      rw [if_pos hexited] at horderly
      exact ⟨⟨horderly,h.flag,Or.inr ⟨rfl,rfl⟩,h.seen⟩,Nat.le_refl _⟩
    · exact ⟨h,Nat.le_refl _⟩
  · rw [hstopper]
    dsimp only
    rw [if_neg (by rw [hjoinable]; exact Bool.noConfusion)]
    exact ⟨h,Nat.le_refl _⟩

theorem Leaving.elapse (h : Leaving cfg s) (ms : ℕ) (horderly : Orderly cfg (s.elapse cfg ms)) :
    Leaving cfg (s.elapse cfg ms) ∧ (s.elapse cfg ms).thread.turns ≤ s.thread.turns := by
  unfold EventStream.elapse at horderly ⊢
  split
  · rename_i left hthread
    rw [hthread] at horderly ⊢
    dsimp only at horderly
    split
    · rename_i hover
      rw [if_pos hover] at horderly
      exact ⟨⟨horderly,h.flag,h.stopper,not_missed_of_thread rfl RunAt.noConfusion⟩,Nat.le_refl 0⟩
    · rename_i hover
      rw [if_neg hover] at horderly
      exact ⟨⟨horderly,h.flag,h.stopper,not_missed_of_thread rfl RunAt.noConfusion⟩,Nat.le_refl 0⟩
  · exact ⟨h,Nat.le_refl _⟩

/-- A statement of the thread brings it closer to its end, and nothing else takes it further away. -/
theorem Leaving.step (hle : cfg.reconnectMinMs ≤ cfg.reconnectMaxMs) (h : Leaving cfg s)
    {a : StreamStep} (ha : a ≠ .start) :
    Leaving cfg (s.step cfg a) ∧
      (s.step cfg a).thread.turns ≤ s.thread.turns - (a == .run).toNat := by
  have horderly := h.orderly.step hle a
  cases a with
  | start => exact absurd rfl ha
  | stop => exact h.stop
  | run => exact h.run
  | event =>
    rw [EventStream.step, EventStream.event] at horderly ⊢
    split
    · rename_i hblocked
      rw [if_pos hblocked] at horderly
      refine ⟨⟨horderly,h.flag,h.stopper,
        not_missed_of_ended RunAt.noConfusion (Or.inl (h.caught hblocked))⟩,?_⟩
      rw [hblocked]
      exact Nat.le_refl 4
    · exact ⟨h,Nat.le_refl _⟩
  | ended =>
    refine ⟨⟨horderly,h.flag,h.stopper,not_missed_of_ended ?_ (Or.inr rfl)⟩,Nat.le_refl _⟩
    exact fun hthread => h.seen (Or.inl hthread)
  | elapse ms => exact h.elapse ms horderly

/-- At the head of its loop, asleep or gone, the thread needs no more than its sleep and one
statement. -/
theorem Leaving.exits (h : Leaving cfg s) (hturns : s.thread.turns = 0) :
    ∃ left ≤ cfg.reconnectMaxMs.toNat,
      (exec (EventStream.step cfg) s [.elapse left, .run]).thread = .exited := by
  have hhead : ∀ {t : EventStream}, t.thread = .head → t.stopRequested = true →
      (t.run cfg).thread = .exited := by
    intro t hthread hflag
    rw [EventStream.run, hthread]
    exact if_pos hflag
  have hawake : (∀ left, s.thread ≠ .sleeping left) → s.elapse cfg 0 = s := by
    intro hthread
    unfold EventStream.elapse
    split
    · rename_i left hsleeping
      exact absurd hsleeping (hthread left)
    · rfl
  cases hthread : s.thread with
  | head =>
    refine ⟨0,Nat.zero_le _,?_⟩
    change ((s.elapse cfg 0).run cfg).thread = .exited
    rw [hawake fun left => by rw [hthread]; exact RunAt.noConfusion]
    exact hhead hthread h.flag
  | sleeping left =>
    refine ⟨left,h.orderly.sleep left hthread,?_⟩
    change ((s.elapse cfg left).run cfg).thread = .exited
    have hwakes : s.elapse cfg left = s.wakes cfg := by
      rw [EventStream.elapse, hthread]
      exact if_pos (Nat.le_refl left)
    rw [hwakes]
    exact hhead rfl h.flag
  | exited =>
    refine ⟨0,Nat.zero_le _,?_⟩
    change ((s.elapse cfg 0).run cfg).thread = .exited
    rw [hawake fun left => by rw [hthread]; exact RunAt.noConfusion]
    rw [EventStream.run, hthread]
    exact hthread
  | _ =>
    rw [hthread] at hturns
    cases hturns

/-- Whether `stop` returns depends on one thing: that its locked section did not come between the
thread's look at the flag and the registration of the next call. If it did, `stop` waits as long as
the server keeps the stream open, whatever else happens. If not, the thread is out after four of its
statements, under every schedule, apart from a sleep of at most the largest backoff and one more. -/
theorem stop_joins_iff_seen (cfg : EventStreamConfig)
    (hle : cfg.reconnectMinMs ≤ cfg.reconnectMaxMs) (as : List StreamStep)
    (hjoining : (exec (step cfg) (fresh cfg) as).stopper = .joining) :
    let s := exec (step cfg) (fresh cfg) as
    (s.Missed → ∀ bs, .ended ∉ bs → (exec (step cfg) s bs).stopper = .joining) ∧
    (¬ s.Missed → ∀ bs, .start ∉ bs → 4 ≤ bs.count .run →
      ∃ left ≤ cfg.reconnectMaxMs.toNat,
        (exec (step cfg) (exec (step cfg) s bs) [.elapse left, .run]).thread = .exited) := by
  intro s
  have horderly : Orderly cfg s :=
    exec_invariant (fun _ a h => h.step hle a) as (orderly_fresh hle)
  have hflag : s.stopRequested = true :=
    horderly.flag (by rw [hjoining]; exact StopAt.noConfusion)
  constructor
  · intro hmissed bs hbs
    have hhangs : Hangs (exec (step cfg) s bs) :=
      exec_invariant_of (fun _ _ ha h => h.step ha)
        (AllSteps.of_forall fun a ha => ne_of_mem_of_not_mem ha hbs) ⟨hjoining,hflag,hmissed⟩
    exact hhangs.stopper
  · intro hseen bs hbs hcount
    have hleaving : Leaving cfg s := ⟨horderly,hflag,Or.inl hjoining,hseen⟩
    have hothers : AllSteps (step cfg) (fun _ a => a ≠ .start) s bs :=
      AllSteps.of_forall fun a ha => ne_of_mem_of_not_mem ha hbs
    have hrun := exec_measure_le (I:=Leaving cfg) (· == StreamStep.run)
      (fun (t : EventStream) => t.thread.turns) (fun _ _ ha h => h.step hle ha) hothers hleaving
    have hmost := s.thread.turns_le
    have hturns := hrun.2
    change _ ≤ s.thread.turns - bs.count .run at hturns
    exact hrun.1.exits (by omega)

/-- `stop` raises the flag and finds no call just before the thread registers one. -/
def stoppedBetween : List StreamStep := [.start, .run, .stop, .stop, .stop]

theorem stop_joins_iff_seen_between :
    let s := exec (step {}) (fresh {}) stoppedBetween
    s.Missed ∧ s.stopper = .joining ∧
    (s.Missed → ∀ bs, .ended ∉ bs → (exec (step {}) s bs).stopper = .joining) ∧
    (¬ s.Missed → ∀ bs, .start ∉ bs → 4 ≤ bs.count .run →
      ∃ left ≤ (EventStreamConfig.reconnectMaxMs {}).toNat,
        (exec (step {}) (exec (step {}) s bs) [.elapse left, .run]).thread = .exited) :=
  ⟨by decide,by decide,stop_joins_iff_seen {} (by decide) stoppedBetween (by decide)⟩

end EventStream
end AlprGate.DashApi
