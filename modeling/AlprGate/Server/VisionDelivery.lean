import AlprGate.Server.DetectionCalls
import AlprGate.Server.VisionDaemon

/-! # How often a detection opens the gate

An attempt reaches the server at most once. The daemon knows of the calls whose answer has arrived,
so the commands on the bus are at least the authorized decisions that it has counted, and at most
these and the attempts that failed or are in progress.
-/
namespace AlprGate.Vision
open ServerRpc Transition

/-- The attempts that are left for the frame in hand. -/
def DaemonPhase.left (n : ℕ) : DaemonPhase → ℕ
  | .calling _ attempt _ => n - attempt
  | .sleeping _ attempt _ => n - attempt
  | _ => 0

/-- The frame in hand is for the daemon's gate, and there is an attempt left after a sleep. -/
def DaemonPhase.Within (cfg : SubmitConfig) : DaemonPhase → Prop
  | .calling frame attempt _ => frame.gateId = cfg.gateId ∧ attempt ≤ cfg.attempts
  | .sleeping frame attempt _ => frame.gateId = cfg.gateId ∧ attempt < cfg.attempts
  | _ => True

theorem SubmitConfig.attempts_pos (cfg : SubmitConfig) : 0 < cfg.attempts := by
  unfold attempts
  split
  · exact Nat.one_pos
  · rename_i hne
    refine Nat.pos_of_ne_zero fun h => hne ?_
    exact BitVec.eq_of_toNat_eq h

namespace Ingest
variable {cfg : SubmitConfig} {reader : FrameReader} {s : Ingest}

/-- Nobody else submits detections at the daemon's gate. -/
def Exclusive (cfg : SubmitConfig) (_ : Ingest) : IngestStep → Prop
  | .server (.submitDetection _ req) => req.gateId ≠ Rpc.utf8 cfg.gateId
  | _ => True

instance (cfg : SubmitConfig) (s : Ingest) (a : IngestStep) : Decidable (Exclusive cfg s a) := by
  unfold Exclusive
  split
  · infer_instance
  · infer_instance

/-! ### The frames and their attempts -/

/-- The frames are those of the observed sets under the next numbers, and no frame is tried more
often than configured. -/
structure Budgeted (cfg : SubmitConfig) (s : Ingest) : Prop where
  builder : s.builder = ⟨cfg.gateId,BitVec.ofNat 64 (s.observed.length + 1)⟩
  frames : s.frames = s.observed.mapIdx fun i obs =>
    FrameBuilder.frame ⟨cfg.gateId,BitVec.ofNat 64 (i + 1)⟩ obs
  wire : ∀ request ∈ s.wire, request.2.gateId = cfg.gateId
  within : s.phase.Within cfg
  spent : s.rpcs + s.phase.left cfg.attempts ≤ cfg.attempts * s.observed.length

theorem Budgeted.call (h : Budgeted cfg s) {frame : DetectionFrame} {attempt : ℕ} (backoff : ℕ)
    (hframe : frame.gateId = cfg.gateId) (hattempt : attempt ≤ cfg.attempts)
    (hspent : s.rpcs + 1 + (cfg.attempts - attempt) ≤ cfg.attempts * s.observed.length) :
    Budgeted cfg (s.call frame attempt backoff) := by
  refine ⟨h.builder,h.frames,?_,⟨hframe,hattempt⟩,hspent⟩
  intro request hrequest
  rcases List.mem_append.mp hrequest with hrequest | hrequest
  · exact h.wire request hrequest
  · rw [List.mem_singleton.mp hrequest]
    exact hframe

theorem Budgeted.submitSet (h : Budgeted cfg s) (hphase : s.phase = .pulling)
    (obs : ObservationSet) : Budgeted cfg (s.submitSet cfg obs) := by
  have hspent := h.spent
  rw [hphase] at hspent
  have hpos := cfg.attempts_pos
  have hbuilder : (s.builder.build obs).2 =
      ⟨cfg.gateId,BitVec.ofNat 64 ((s.observed ++ [obs]).length + 1)⟩ := by
    rw [h.builder, FrameBuilder.build, List.length_append, List.length_singleton,
      BitVec.ofNat_add (s.observed.length + 1) 1]
    rfl
  have hframe : (s.builder.build obs).1 =
      FrameBuilder.frame ⟨cfg.gateId,BitVec.ofNat 64 (s.observed.length + 1)⟩ obs := by
    rw [h.builder, FrameBuilder.build]
  have hbooked : Budgeted cfg { s with
      builder := (s.builder.build obs).2
      observed := s.observed ++ [obs]
      frames := s.frames ++ [(s.builder.build obs).1] } := by
    refine ⟨hbuilder,?_,h.wire,h.within,?_⟩
    · rw [h.frames, hframe, List.mapIdx_append]
      simp
    · refine h.spent.trans (Nat.mul_le_mul_left _ ?_)
      simp
  refine hbooked.call _ (by rw [hframe]; rfl) hpos ?_
  simp only [DaemonPhase.left] at hspent
  rw [List.length_append, List.length_singleton, Nat.mul_add, Nat.mul_one]
  dsimp only
  omega

theorem Budgeted.fail (h : Budgeted cfg s) (code : StatusCode) (message : String) :
    Budgeted cfg (s.fail cfg code message) := by
  have hwithin := h.within
  have hspent := h.spent
  unfold Ingest.fail
  split
  · rename_i frame attempt backoff hphase
    rw [hphase] at hwithin hspent
    split
    · exact ⟨h.builder,h.frames,h.wire,trivial,(Nat.le_add_right _ _).trans hspent⟩
    · rename_i hretry
      push Not at hretry
      exact ⟨h.builder,h.frames,h.wire,⟨hwithin.1,lt_of_le_of_ne hwithin.2 hretry.2⟩,hspent⟩
  · exact h

theorem Budgeted.reply (h : Budgeted cfg s) : Budgeted cfg (s.reply cfg) := by
  unfold Ingest.reply
  split
  · split
    · split
      · rename_i reply _
        cases reply with
        | decision d =>
          exact ⟨h.builder,h.frames,h.wire,trivial,(Nat.le_add_right _ _).trans h.spent⟩
        | invalidArgument message => exact h.fail .invalidArgument message
        | ack a => exact h
      · exact h
    · exact h
  · exact h

theorem Budgeted.step (h : Budgeted cfg s) (a : IngestStep) : Budgeted cfg (s.step cfg reader a) := by
  cases a with
  | signal => exact ⟨h.builder,h.frames,h.wire,h.within,h.spent⟩
  | pull obs =>
    change Budgeted cfg (s.pull cfg obs)
    unfold pull
    have hexit : Budgeted cfg { s with phase := .exited 0 none } :=
      ⟨h.builder,h.frames,h.wire,trivial,(Nat.le_add_right _ _).trans h.spent⟩
    split
    · rename_i hphase
      split
      · exact hexit
      · cases obs with
        | none => exact hexit
        | some obs =>
          dsimp only
          split
          · exact h
          · exact h.submitSet hphase obs
    · exact h
  | deliver id k =>
    rw [Ingest.step, deliver]
    split
    · split
      · exact ⟨h.builder,h.frames,fun request hrequest =>
          h.wire request (List.mem_of_mem_filter hrequest),h.within,h.spent⟩
      · exact h
    · exact h
  | lose id =>
    exact ⟨h.builder,h.frames,fun request hrequest =>
      h.wire request (List.mem_of_mem_filter hrequest),h.within,h.spent⟩
  | server a => exact ⟨h.builder,h.frames,h.wire,h.within,h.spent⟩
  | reply => exact h.reply
  | fail code message => exact h.fail code message
  | wake =>
    rw [Ingest.step, wake]
    split
    · rename_i frame attempt backoff hphase
      have hwithin := h.within
      have hspent := h.spent
      rw [hphase] at hwithin hspent
      refine h.call _ hwithin.1 hwithin.2 ?_
      have hlt := hwithin.2
      simp only [DaemonPhase.left] at hspent
      omega
    · exact h

/-! ### The calls that the server has taken -/

/-- Attempts have different numbers and different calls, an answer comes from the call of its
attempt, and the attempt in progress has not been answered. -/
structure Booked (cfg : SubmitConfig) (s : Ingest) : Prop where
  wire_lt : ∀ request ∈ s.wire, request.1 < s.rpcs
  accepted_lt : ∀ p ∈ s.accepted, p.1 < s.rpcs
  apart : ∀ request ∈ s.wire, ∀ p ∈ s.accepted, request.1 ≠ p.1
  ids : (s.accepted.map Prod.fst).Nodup
  served : s.server.Served (Rpc.utf8 cfg.gateId) (s.accepted.map Prod.snd)
  answered : s.answered ⊆ s.accepted
  fresh : s.answered.Pairwise fun p q => p.1 < q.1
  past : ∀ p ∈ s.answered, p.1 + s.pending < s.rpcs
  settled : ∀ p ∈ s.answered, ∃ reply, s.server.call p.2 = .returned reply
  submitted : s.submitted = s.answered.length
  authorized : s.authorized = s.answered.countP fun p => (s.server.call p.2).opened
  rpcs : s.submitted + s.failed + s.pending = s.rpcs

theorem pending_call (s : Ingest) (frame : DetectionFrame) (attempt backoff : ℕ) :
    (s.call frame attempt backoff).pending = 1 := rfl

theorem pending_of_calling {frame : DetectionFrame} {attempt backoff : ℕ}
    (h : s.phase = .calling frame attempt backoff) : s.pending = 1 := by
  rw [pending, h]

theorem Booked.call (h : Booked cfg s) (hidle : s.pending = 0) (frame : DetectionFrame)
    (attempt backoff : ℕ) : Booked cfg (s.call frame attempt backoff) := by
  have hrpcs := h.rpcs
  refine ⟨?_,?_,?_,h.ids,h.served,h.answered,h.fresh,?_,h.settled,h.submitted,h.authorized,?_⟩
  · intro request hrequest
    rcases List.mem_append.mp hrequest with hrequest | hrequest
    · exact (h.wire_lt request hrequest).trans (Nat.lt_succ_self _)
    · rw [List.mem_singleton.mp hrequest]
      exact Nat.lt_succ_self _
  · intro p hp
    exact (h.accepted_lt p hp).trans (Nat.lt_succ_self _)
  · intro request hrequest p hp
    rcases List.mem_append.mp hrequest with hrequest | hrequest
    · exact h.apart request hrequest p hp
    · rw [List.mem_singleton.mp hrequest]
      exact (h.accepted_lt p hp).ne'
  · intro p hp
    have hpast := h.past p hp
    rw [pending_call]
    rw [hidle] at hpast
    exact Nat.succ_lt_succ hpast
  · rw [pending_call]
    rw [hidle] at hrpcs
    exact congrArg (· + 1) hrpcs

theorem Booked.submitSet (h : Booked cfg s) (hidle : s.pending = 0) (obs : ObservationSet) :
    Booked cfg (s.submitSet cfg obs) := by
  have hbooked : Booked cfg { s with
      builder := (s.builder.build obs).2
      observed := s.observed ++ [obs]
      frames := s.frames ++ [(s.builder.build obs).1] } :=
    ⟨h.wire_lt,h.accepted_lt,h.apart,h.ids,h.served,h.answered,h.fresh,h.past,h.settled,h.submitted,
      h.authorized,h.rpcs⟩
  exact hbooked.call hidle _ _ _

/-- The attempt in progress fails. -/
theorem Booked.drop (h : Booked cfg s) (hcalling : s.pending = 1) {phase : DaemonPhase}
    (hphase : { s with phase := phase }.pending = 0) :
    Booked cfg { s with failed := s.failed + 1, phase := phase } := by
  have hrpcs := h.rpcs
  change ({ s with failed := s.failed + 1, phase := phase } : Ingest).pending = 0 at hphase
  refine ⟨h.wire_lt,h.accepted_lt,h.apart,h.ids,h.served,h.answered,h.fresh,?_,h.settled,h.submitted,
    h.authorized,?_⟩
  · intro p hp
    have hpast := h.past p hp
    rw [hphase]
    dsimp only
    omega
  · rw [hphase]
    dsimp only
    omega

theorem Booked.fail (h : Booked cfg s) (code : StatusCode) (message : String) :
    Booked cfg (s.fail cfg code message) := by
  unfold Ingest.fail
  split
  · rename_i hphase
    have hcalling := pending_of_calling hphase
    split
    · exact h.drop hcalling rfl
    · exact h.drop hcalling rfl
  · exact h

/-- The answer to the attempt in progress is a decision. -/
theorem Booked.decision (h : Booked cfg s) (hcalling : s.pending = 1) {k : ℕ}
    (hk : s.accepted.lookup (s.rpcs - 1) = some k) {d : Fusion.AuthDecision}
    (hcall : s.server.call k = .returned (.decision d)) :
    Booked cfg (s.answer cfg (s.rpcs - 1) k (.decision d)) := by
  have hrpcs := h.rpcs
  have hmem : (s.rpcs - 1,k) ∈ s.accepted := by
    obtain ⟨before,after,hsplit,-⟩ := List.lookup_eq_some_iff.mp hk
    rw [hsplit]
    exact List.mem_append_right _ List.mem_cons_self
  have hpending : (s.answer cfg (s.rpcs - 1) k (.decision d)).pending = 0 := rfl
  refine ⟨h.wire_lt,h.accepted_lt,h.apart,h.ids,h.served,?_,?_,?_,?_,?_,?_,?_⟩
  · exact List.append_subset.mpr ⟨h.answered,List.cons_subset.mpr ⟨hmem,List.nil_subset _⟩⟩
  · refine List.pairwise_append.mpr ⟨h.fresh,List.pairwise_singleton _ _,?_⟩
    intro p hp q hq
    have hpast := h.past p hp
    rw [List.mem_singleton.mp hq]
    dsimp only
    omega
  · intro p hp
    rw [hpending]
    rcases List.mem_append.mp hp with hp | hp
    · exact (Nat.le_add_right _ _).trans_lt (h.past p hp)
    · rw [List.mem_singleton.mp hp]
      change s.rpcs - 1 < s.rpcs
      omega
  · intro p hp
    rcases List.mem_append.mp hp with hp | hp
    · exact h.settled p hp
    · rw [List.mem_singleton.mp hp]
      exact ⟨_,hcall⟩
  · change s.submitted + 1 = _
    rw [h.submitted]
    simp [answer]
  · change (if d.verdict = .authorized then s.authorized + 1 else s.authorized) =
      (s.answered ++ [(s.rpcs - 1,k)]).countP fun p => (s.server.call p.2).opened
    rw [List.countP_append, List.countP_singleton, hcall, ← h.authorized]
    by_cases hverdict : d.verdict = .authorized
    · simp [Call.opened, hverdict]
    · simp [Call.opened, hverdict]
  · rw [hpending]
    change s.submitted + 1 + s.failed + 0 = s.rpcs
    omega

theorem Booked.reply (h : Booked cfg s) : Booked cfg (s.reply cfg) := by
  unfold Ingest.reply
  split
  · rename_i hphase
    split
    · rename_i k hk
      split
      · rename_i reply hcall
        cases reply with
        | decision d => exact h.decision (pending_of_calling hphase) hk hcall
        | invalidArgument message => exact h.fail .invalidArgument message
        | ack a => exact h
      · exact h
    · exact h
  · exact h

/-- The answers that have arrived do not change any more. -/
theorem Booked.settled_turn (h : Booked cfg s) {a : ServerRpc.Input} {t : Services}
    (ht : s.server.Turn a t) :
    (∀ p ∈ s.answered, ∃ reply, t.call p.2 = .returned reply) ∧
      s.authorized = s.answered.countP fun p => (t.call p.2).opened := by
  have hsame : ∀ p ∈ s.answered, t.call p.2 = s.server.call p.2 := by
    intro p hp
    obtain ⟨reply,hreply⟩ := h.settled p hp
    rw [hreply, ht.returned hreply]
  refine ⟨fun p hp => ?_,?_⟩
  · rw [hsame p hp]
    exact h.settled p hp
  · rw [h.authorized]
    refine List.countP_congr fun p hp => ?_
    rw [hsame p hp]

theorem Booked.server (h : Booked cfg s) (a : ServerRpc.Input)
    (ha : ∀ k req, a = .submitDetection k req → req.gateId ≠ Rpc.utf8 cfg.gateId) :
    Booked cfg { s with server := s.server.step a } := by
  have hturn := s.server.step_turn a
  obtain ⟨hsettled,hauthorized⟩ := h.settled_turn hturn
  exact ⟨h.wire_lt,h.accepted_lt,h.apart,h.ids,h.served.turn hturn ha,h.answered,h.fresh,h.past,
    hsettled,h.submitted,hauthorized,h.rpcs⟩

theorem Booked.deliver (h : Booked cfg s) (hbudget : Budgeted cfg s) (id k : ℕ) :
    Booked cfg (s.deliver reader id k) := by
  unfold Ingest.deliver
  split
  · rename_i frame hframe
    split
    · rename_i hidle
      have hmem : (id,frame) ∈ s.wire := by
        obtain ⟨before,after,hsplit,-⟩ := List.lookup_eq_some_iff.mp hframe
        rw [hsplit]
        exact List.mem_append_right _ List.mem_cons_self
      have hturn := s.server.step_turn (.submitDetection k (reader.read frame))
      obtain ⟨hsettled,hauthorized⟩ := h.settled_turn hturn
      have hgate : (reader.read frame).gateId = Rpc.utf8 cfg.gateId := by
        rw [reader.gateId_read, hbudget.wire _ hmem]
      have hserved := h.served.enter hidle hgate
      refine ⟨?_,?_,?_,?_,?_,?_,h.fresh,h.past,hsettled,h.submitted,hauthorized,h.rpcs⟩
      · intro request hrequest
        exact h.wire_lt request (List.mem_of_mem_filter hrequest)
      · intro p hp
        rcases List.mem_append.mp hp with hp | hp
        · exact h.accepted_lt p hp
        · rw [List.mem_singleton.mp hp]
          exact h.wire_lt _ hmem
      · intro request hrequest p hp
        obtain ⟨hin,hne⟩ := List.mem_filter.mp hrequest
        rcases List.mem_append.mp hp with hp | hp
        · exact h.apart request hin p hp
        · rw [List.mem_singleton.mp hp]
          exact of_decide_eq_true hne
      · rw [List.map_append]
        refine h.ids.append (List.nodup_singleton id) (List.disjoint_singleton.mpr ?_)
        intro hid
        obtain ⟨p,hp,hpid⟩ := List.mem_map.mp hid
        exact h.apart _ hmem p hp hpid.symm
      · rw [List.map_append]
        change (s.server.start k (Services.submitDetection (reader.read frame))).Served _ _
        rw [Services.start, hidle]
        exact hserved
      · exact fun p hp => List.mem_append_left _ (h.answered hp)
    · exact h
  · exact h

theorem Booked.step (h : Booked cfg s) (hbudget : Budgeted cfg s) {a : IngestStep}
    (ha : Exclusive cfg s a) : Booked cfg (s.step cfg reader a) := by
  cases a with
  | signal =>
    exact ⟨h.wire_lt,h.accepted_lt,h.apart,h.ids,h.served,h.answered,h.fresh,h.past,h.settled,
      h.submitted,h.authorized,h.rpcs⟩
  | pull obs =>
    change Booked cfg (s.pull cfg obs)
    unfold pull
    split
    · rename_i hphase
      have hidle : s.pending = 0 := by rw [pending, hphase]
      have hrpcs := h.rpcs
      rw [hidle] at hrpcs
      have hexit : Booked cfg { s with phase := .exited 0 none } :=
        ⟨h.wire_lt,h.accepted_lt,h.apart,h.ids,h.served,h.answered,h.fresh,
          fun p hp => (Nat.le_add_right _ _).trans_lt (h.past p hp),h.settled,h.submitted,
          h.authorized,hrpcs⟩
      split
      · exact hexit
      · cases obs with
        | none => exact hexit
        | some obs =>
          dsimp only
          split
          · exact h
          · exact h.submitSet hidle obs
    · exact h
  | deliver id k => exact h.deliver hbudget id k
  | lose id =>
    exact ⟨fun request hrequest => h.wire_lt request (List.mem_of_mem_filter hrequest),h.accepted_lt,
      fun request hrequest => h.apart request (List.mem_of_mem_filter hrequest),h.ids,h.served,
      h.answered,h.fresh,h.past,h.settled,h.submitted,h.authorized,h.rpcs⟩
  | server a =>
    refine h.server a fun k req hreq => ?_
    subst hreq
    exact ha
  | reply => exact h.reply
  | fail code message => exact h.fail code message
  | wake =>
    change Booked cfg s.wake
    unfold wake
    split
    · rename_i hphase
      exact h.call (by rw [pending, hphase]) _ _ _
    · exact h

/-! ### The commands on the bus -/

theorem Booked.bounds (h : Booked cfg s) :
    s.server.opens (Rpc.utf8 cfg.gateId) ≤ s.authorized + s.failed + s.pending ∧
      (s.server.stopped = false → s.authorized ≤ s.server.opens (Rpc.utf8 cfg.gateId)) := by
  have hnodup : s.answered.Nodup := by
    refine h.fresh.imp ?_
    rintro p q hlt rfl
    exact lt_irrefl _ hlt
  have hsub : s.answered.Subperm s.accepted := List.subperm_of_subset hnodup h.answered
  have hcount : (s.accepted.map Prod.snd).countP (fun k => (s.server.call k).opened) =
      s.accepted.countP fun p => (s.server.call p.2).opened := List.countP_map
  have hle := h.served.opens_le
  have heq := h.served.opens_eq
  have hrpcs := h.rpcs
  rw [hcount] at hle heq
  constructor
  · have hunknown := Tally.countP_add_length_le hsub fun p => (s.server.call p.2).opened
    have hall : s.accepted.length ≤ s.rpcs := by
      rw [← List.length_map Prod.fst]
      refine Tally.length_le_of_nodup h.ids fun id hid => ?_
      obtain ⟨p,hp,rfl⟩ := List.mem_map.mp hid
      exact h.accepted_lt p hp
    rw [← h.authorized, ← h.submitted] at hunknown
    omega
  · intro hrun
    rw [heq hrun, h.authorized]
    exact hsub.countP_le _

theorem budgeted_boot (cfg : SubmitConfig) (server : Services) : Budgeted cfg (boot cfg server) :=
  ⟨rfl,rfl,fun _ h => absurd h List.not_mem_nil,trivial,Nat.zero_le _⟩

theorem booked_boot (cfg : SubmitConfig) (fusion : Fusion.FusionEngine) (siteId : Auth.Text) :
    Booked cfg (boot cfg (.boot fusion siteId)) where
  wire_lt := fun _ h => absurd h List.not_mem_nil
  accepted_lt := fun _ h => absurd h List.not_mem_nil
  apart := fun _ h => absurd h List.not_mem_nil
  ids := List.nodup_nil
  served :=
    { nodup := List.nodup_nil
      serving := fun _ h => absurd h List.not_mem_nil
      foreign := by
        intro k _ frame h
        cases h
      announced := fun _ _ _ h => Call.noConfusion h
      opens_le := le_refl 0
      opens_eq := fun _ => rfl }
  answered := List.nil_subset _
  fresh := List.Pairwise.nil
  past := fun _ h => absurd h List.not_mem_nil
  settled := fun _ h => absurd h List.not_mem_nil
  submitted := rfl
  authorized := rfl
  rpcs := rfl

/-- On a running bus there is an `OPEN_GATE` command for every authorized decision that the daemon
has counted, and there are no more than that and the attempts that have failed or are in progress: a
failed attempt can have opened the gate. Attempts are at most as many as configured for each frame,
and the frames are those of the observed sets, in order and numbered from one. -/
theorem openings_of_detections (cfg : SubmitConfig) (reader : FrameReader)
    (fusion : Fusion.FusionEngine) (siteId : Auth.Text) (as : List IngestStep)
    (has : AllSteps (step cfg reader) (Exclusive cfg) (boot cfg (.boot fusion siteId)) as) :
    let s := exec (step cfg reader) (boot cfg (.boot fusion siteId)) as
    let opens := s.server.opens (Rpc.utf8 cfg.gateId)
    opens ≤ s.authorized + s.failed + s.pending ∧
      (s.server.stopped = false → s.authorized ≤ opens) ∧
      s.submitted + s.failed + s.pending ≤ cfg.attempts * s.frames.length ∧
      s.frames = s.observed.mapIdx fun i obs =>
        FrameBuilder.frame ⟨cfg.gateId,BitVec.ofNat 64 (i + 1)⟩ obs := by
  intro s opens
  have hinv : Budgeted cfg s ∧ Booked cfg s :=
    exec_invariant_of (I:=fun s => Budgeted cfg s ∧ Booked cfg s)
      (fun s a ha h => ⟨h.1.step a,h.2.step h.1 ha⟩) has
      ⟨budgeted_boot cfg _,booked_boot cfg fusion siteId⟩
  obtain ⟨hbudget,hbooked⟩ := hinv
  refine ⟨hbooked.bounds.1,hbooked.bounds.2,?_,hbudget.frames⟩
  have hlength : s.frames.length = s.observed.length := by rw [hbudget.frames, List.length_mapIdx]
  rw [hbooked.rpcs, hlength]
  exact (Nat.le_add_right _ _).trans hbudget.spent

/-- The server's answer to the first attempt is lost, and the second attempt opens again. -/
def answerLost (clock : Auth.Tm) : List IngestStep :=
  [.pull (some ⟨0,[⟨"AB1",.finite 1,.finite 1,{},"",""⟩],[]⟩),
    .deliver 0 0, .server (.decide 0 [1] 0 clock), .server (.publishDecision 0),
    .server (.publishCommand 0 [2] 0), .fail .unavailable "connection reset", .wake,
    .deliver 1 1, .server (.decide 1 [3] 0 clock), .server (.publishDecision 1),
    .server (.publishCommand 1 [4] 0), .reply]

theorem openings_of_detections_answerLost :
    let reader : FrameReader := ⟨fun frame =>
      { gateId := Rpc.utf8 frame.gateId
        plates := frame.plates.map fun p => ⟨Rpc.utf8 p.plateText,1,1⟩ },fun _ => rfl⟩
    let fusion := Fusion.FusionEngine.setOverride {} (Rpc.utf8 "gate-01") .forceOpen
    let s := exec (step {} reader) (boot {} (.boot fusion [])) (answerLost ⟨0,0,0⟩)
    let opens := s.server.opens (Rpc.utf8 "gate-01")
    (s.frames.length = 1 ∧ s.authorized = 1 ∧ opens = 2) ∧
      opens ≤ s.authorized + s.failed + s.pending ∧
      (s.server.stopped = false → s.authorized ≤ opens) ∧
      s.submitted + s.failed + s.pending ≤ SubmitConfig.attempts {} * s.frames.length ∧
      s.frames = s.observed.mapIdx fun i obs =>
        FrameBuilder.frame ⟨"gate-01",BitVec.ofNat 64 (i + 1)⟩ obs :=
  ⟨by decide +kernel,openings_of_detections {} _ _ [] (answerLost ⟨0,0,0⟩) (by decide +kernel)⟩

end Ingest
end AlprGate.Vision
