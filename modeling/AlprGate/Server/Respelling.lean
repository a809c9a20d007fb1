import Mathlib.Logic.Relation
import AlprGate.Server.FusionHistory

/-! # The spelling of plates

Separators may be put in and taken out and letters may change case without changing a
plate: two texts are spellings of one plate exactly when they normalize alike. Store and
engine read every plate through the normalizer, so that respelling the plates of a whole
run of calls changes none of its results.
-/
namespace AlprGate.Auth

/-- Blank, tab, dash and underscore. -/
def IsSeparator (u : UInt8) : Prop := u = 0x20 ∨ u = 0x09 ∨ u = 0x2d ∨ u = 0x5f

def IsSmall (u : UInt8) : Prop := 0x61 ≤ u ∧ u ≤ 0x7a

/-- One change of spelling: a separator is put in, or a capital becomes small. -/
inductive Edit : Text → Text → Prop
  | insert (front back : Text) {u : UInt8} (h : IsSeparator u) :
      Edit (front ++ back) (front ++ u :: back)
  | recase (front back : Text) {u : UInt8} (h : IsSmall u) :
      Edit (front ++ (u - 0x20) :: back) (front ++ u :: back)

/-- Any number of such changes, in either direction. -/
def Respelled : Text → Text → Prop := Relation.EqvGen Edit

theorem normalizePlate_append (front back : Text) :
    normalizePlate (front ++ back) = normalizePlate front ++ normalizePlate back := by
  induction front with
  | nil => rfl
  | cons u front ih =>
    rw [List.cons_append, normalizePlate, normalizePlate, ih]
    split
    · rfl
    · split
      · rfl
      · rfl

theorem normalizePlate_cons_separator {u : UInt8} (h : IsSeparator u) (raw : Text) :
    normalizePlate (u :: raw) = normalizePlate raw := by
  rw [normalizePlate]
  exact if_pos h

/-- A small letter is no separator. -/
theorem IsSmall.not_separator {u : UInt8} (h : IsSmall u) : ¬ IsSeparator u := by
  rintro (rfl | rfl | rfl | rfl)
  · exact absurd h.1 (by decide)
  · exact absurd h.1 (by decide)
  · exact absurd h.1 (by decide)
  · exact absurd h.1 (by decide)

theorem normalizePlate_cons_small {u : UInt8} (h : IsSmall u) (raw : Text) :
    normalizePlate (u :: raw) = (u - 0x20) :: normalizePlate raw := by
  rw [normalizePlate]
  exact (if_neg h.not_separator).trans (if_pos h)

theorem Edit.normalizePlate_eq {raw raw' : Text} (h : Edit raw raw') :
    normalizePlate raw = normalizePlate raw' := by
  cases h with
  | insert front back h =>
    rw [normalizePlate_append, normalizePlate_append, normalizePlate_cons_separator h]
  | recase front back h =>
    obtain ⟨hsep,hlower⟩ := capital_fixed h
    rw [normalizePlate_append, normalizePlate_append, normalizePlate_cons_small h,
      normalizePlate_cons_of_fixed back hsep hlower]

/-- The first byte of a text can be kept. -/
theorem Respelled.cons {raw raw' : Text} (u : UInt8) (h : Respelled raw raw') :
    Respelled (u :: raw) (u :: raw') := by
  induction h with
  | rel raw raw' h =>
    cases h with
    | insert front back h => exact .rel _ _ (.insert (u :: front) back h)
    | recase front back h => exact .rel _ _ (.recase (u :: front) back h)
  | refl raw => exact .refl _
  | symm raw raw' _ ih => exact ih.symm
  | trans raw raw' raw'' _ _ ih ih' => exact ih.trans _ _ _ ih'

/-- The normal form is one of the spellings. -/
theorem respelled_normalizePlate (raw : Text) : Respelled (normalizePlate raw) raw := by
  induction raw with
  | nil => exact .refl _
  | cons u raw ih =>
    by_cases hsep : IsSeparator u
    · rw [normalizePlate_cons_separator hsep]
      exact ih.trans _ _ _ (.rel _ _ (.insert [] raw hsep))
    · by_cases hsmall : IsSmall u
      · rw [normalizePlate_cons_small hsmall]
        exact (ih.cons _).trans _ _ _ (.rel _ _ (.recase [] raw hsmall))
      · rw [normalizePlate_cons_of_fixed raw hsep hsmall]
        exact ih.cons u

/-- The normalizer identifies the spellings of a plate and nothing else. -/
theorem respelled_iff {raw raw' : Text} :
    Respelled raw raw' ↔ normalizePlate raw = normalizePlate raw' := by
  constructor
  · intro h
    induction h with
    | rel raw raw' h => exact h.normalizePlate_eq
    | refl raw => rfl
    | symm raw raw' _ ih => exact ih.symm
    | trans raw raw' raw'' _ _ ih ih' => exact ih.trans ih'
  · intro h
    have hleft := (respelled_normalizePlate raw).symm
    rw [h] at hleft
    exact hleft.trans _ _ _ (respelled_normalizePlate raw')

/-- Entries that differ in the spelling of the plate at most. -/
def Allowlistentry.RespelledAs (e e' : Allowlistentry) : Prop :=
  Respelled e.plateText e'.plateText ∧ e' = { e with plateText := e'.plateText }

namespace AllowlistStore
variable {s : AllowlistStore} {siteId raw raw' : Text} {e e' : Allowlistentry}

theorem upsertEntry_respelled (h : e.RespelledAs e') :
    s.upsertEntry siteId e = s.upsertEntry siteId e' := by
  obtain ⟨hplate,he'⟩ := h
  have hnormal := respelled_iff.mp hplate
  rw [upsertEntry, upsertEntry, hnormal, he']
  rfl

theorem upsertLoop_respelled (stats : UpsertStats) {entries entries' : List Allowlistentry}
    (h : List.Forall₂ Allowlistentry.RespelledAs entries entries') :
    upsertLoop siteId s stats entries = upsertLoop siteId s stats entries' := by
  induction h generalizing s stats with
  | nil => rfl
  | cons he _ ih =>
    have hnormal := respelled_iff.mp he.1
    rw [upsertLoop, upsertLoop, hnormal, upsertEntry_respelled he]
    split
    · rfl
    · exact ih _

theorem upsert_respelled {entries entries' : List Allowlistentry}
    (h : List.Forall₂ Allowlistentry.RespelledAs entries entries') :
    s.upsert siteId entries = s.upsert siteId entries' := by
  rw [upsert, upsert, upsertLoop_respelled {} h]

theorem removePlate_respelled (h : Respelled raw raw') (p : ℕ × AllowlistStore) :
    removePlate siteId p raw = removePlate siteId p raw' := by
  unfold removePlate
  rw [respelled_iff.mp h]

theorem blocklistRemovePlate_respelled (h : Respelled raw raw') (p : ℕ × AllowlistStore) :
    blocklistRemovePlate siteId p raw = blocklistRemovePlate siteId p raw' := by
  unfold blocklistRemovePlate
  rw [respelled_iff.mp h]

/-- A loop over plates whose body does not see their spelling. -/
theorem foldl_respelled {β : Type*} {body : β → Text → β}
    (hbody : ∀ p raw raw', Respelled raw raw' → body p raw = body p raw') (p : β)
    {plates plates' : List Text} (h : List.Forall₂ Respelled plates plates') :
    plates.foldl body p = plates'.foldl body p := by
  induction h generalizing p with
  | nil => rfl
  | cons hplate _ ih =>
    rw [List.foldl_cons, List.foldl_cons, hbody p _ _ hplate]
    exact ih _

theorem remove_respelled {plates plates' : List Text} (h : List.Forall₂ Respelled plates plates') :
    s.remove siteId plates = s.remove siteId plates' :=
  foldl_respelled (fun p _ _ hraw => removePlate_respelled hraw p) _ h

theorem blocklistRemove_respelled {plates plates' : List Text}
    (h : List.Forall₂ Respelled plates plates') :
    s.blocklistRemove siteId plates = s.blocklistRemove siteId plates' :=
  foldl_respelled (fun p _ _ hraw => blocklistRemovePlate_respelled hraw p) _ h

theorem lookup_respelled (h : Respelled raw raw') : s.lookup siteId raw = s.lookup siteId raw' := by
  rw [lookup, lookup, respelled_iff.mp h]

theorem isBlocklisted_respelled (h : Respelled raw raw') :
    s.isBlocklisted siteId raw = s.isBlocklisted siteId raw' := by
  rw [isBlocklisted, isBlocklisted, respelled_iff.mp h]

theorem blocklistUpsert_respelled (h : Respelled raw raw') (reason : Text) (now : ℤ) :
    s.blocklistUpsert siteId raw reason now = s.blocklistUpsert siteId raw' reason now := by
  rw [blocklistUpsert, blocklistUpsert, respelled_iff.mp h]

end AllowlistStore
end AlprGate.Auth

namespace AlprGate.Fusion
open Auth Transition

/-- The calls of a run. The time of a blocklist entry comes from the database. -/
inductive Operation where
  | upsert (siteId : Text) (entries : List Allowlistentry)
  | remove (siteId : Text) (plateTexts : List Text)
  | blocklistUpsert (siteId plateText reason : Text) (now : ℤ)
  | blocklistRemove (siteId : Text) (plateTexts : List Text)
  | lookup (siteId plateText : Text)
  | isBlocklisted (siteId plateText : Text)
  | decide (decisionId : Text) (req : AuthorizeRequest) (nowUnix : ℤ) (nowLocal : Tm)

inductive Outcome where
  | upserted (r : Except String UpsertStats)
  | removed (count : ℕ)
  | blocked (r : Except String ℕ)
  | found (e : Option Allowlistentry)
  | listed (b : Bool)
  | decided (d : AuthDecision)

/-- One call: its result, and the engine with the store after it. -/
def FusionEngine.perform (f : FusionEngine) : Operation → Outcome × FusionEngine
  | .upsert siteId entries =>
    let (r, s) := f.store.upsert siteId entries
    (.upserted r, { f with store := s })
  | .remove siteId plateTexts =>
    let (n, s) := f.store.remove siteId plateTexts
    (.removed n, { f with store := s })
  | .blocklistUpsert siteId plateText reason now =>
    let (r, s) := f.store.blocklistUpsert siteId plateText reason now
    (.blocked r, { f with store := s })
  | .blocklistRemove siteId plateTexts =>
    let (n, s) := f.store.blocklistRemove siteId plateTexts
    (.removed n, { f with store := s })
  | .lookup siteId plateText => (.found (f.store.lookup siteId plateText), f)
  | .isBlocklisted siteId plateText => (.listed (f.store.isBlocklisted siteId plateText), f)
  | .decide decisionId req nowUnix nowLocal =>
    (.decided (f.decideAt decisionId req nowUnix nowLocal), f)

/-- Detections that differ in the spelling of the plate at most. -/
def PlateDetection.RespelledAs (p p' : PlateDetection) : Prop :=
  Respelled p.plateText p'.plateText ∧ p' = { p with plateText := p'.plateText }

/-- The request with other plates in its frame. -/
def AuthorizeRequest.withPlates (req : AuthorizeRequest) (plates : List PlateDetection) :
    AuthorizeRequest := { req with frame := { req.frame with plates := plates } }

/-- Calls that differ in the spelling of plates at most. -/
inductive Operation.RespelledAs : Operation → Operation → Prop
  | upsert (siteId : Text) {entries entries' : List Allowlistentry}
      (h : List.Forall₂ Allowlistentry.RespelledAs entries entries') :
      RespelledAs (.upsert siteId entries) (.upsert siteId entries')
  | remove (siteId : Text) {plates plates' : List Text} (h : List.Forall₂ Respelled plates plates') :
      RespelledAs (.remove siteId plates) (.remove siteId plates')
  | blocklistUpsert (siteId reason : Text) (now : ℤ) {raw raw' : Text} (h : Respelled raw raw') :
      RespelledAs (.blocklistUpsert siteId raw reason now) (.blocklistUpsert siteId raw' reason now)
  | blocklistRemove (siteId : Text) {plates plates' : List Text}
      (h : List.Forall₂ Respelled plates plates') :
      RespelledAs (.blocklistRemove siteId plates) (.blocklistRemove siteId plates')
  | lookup (siteId : Text) {raw raw' : Text} (h : Respelled raw raw') :
      RespelledAs (.lookup siteId raw) (.lookup siteId raw')
  | isBlocklisted (siteId : Text) {raw raw' : Text} (h : Respelled raw raw') :
      RespelledAs (.isBlocklisted siteId raw) (.isBlocklisted siteId raw')
  | decide (decisionId : Text) (req : AuthorizeRequest) (nowUnix : ℤ) (nowLocal : Tm)
      {plates : List PlateDetection}
      (h : List.Forall₂ PlateDetection.RespelledAs req.frame.plates plates) :
      RespelledAs (.decide decisionId req nowUnix nowLocal)
        (.decide decisionId (req.withPlates plates) nowUnix nowLocal)

variable {req : AuthorizeRequest} {plates : List PlateDetection}

/-- The choice among the plates looks at their confidences. -/
theorem pickBestPlate_respelled
    (h : List.Forall₂ PlateDetection.RespelledAs req.frame.plates plates) :
    pickBestPlate req = pickBestPlate (req.withPlates plates) := by
  have hscore : List.Forall₂ (fun p p' => p.detectionConf = p'.detectionConf) req.frame.plates
      plates := by
    refine h.imp ?_
    intro p p' hp
    rw [hp.2]
  exact Selection.scan_congr PlateDetection.detectionConf hscore 0 none (-1)

theorem getElem?_respelled {plates plates' : List PlateDetection}
    (h : List.Forall₂ PlateDetection.RespelledAs plates plates') (i : ℕ) :
    Option.Rel PlateDetection.RespelledAs plates[i]? plates'[i]? := by
  induction h generalizing i with
  | nil => exact .none
  | cons hplate _ ih =>
    cases i with
    | zero => exact .some hplate
    | succ i => exact ih i

/-- The best plates are spellings of one plate, with the same confidences. -/
theorem bestPlate_respelled
    (h : List.Forall₂ PlateDetection.RespelledAs req.frame.plates plates) :
    Option.Rel PlateDetection.RespelledAs (bestPlate req) (bestPlate (req.withPlates plates)) := by
  rw [bestPlate, bestPlate, pickBestPlate_respelled h]
  cases pickBestPlate (req.withPlates plates) with
  | none => exact .none
  | some i => exact getElem?_respelled h i

namespace FusionEngine

theorem decideAt_respelled (f : FusionEngine) (decisionId : Text) (nowUnix : ℤ) (nowLocal : Tm)
    (h : List.Forall₂ PlateDetection.RespelledAs req.frame.plates plates) :
    f.decideAt decisionId req nowUnix nowLocal =
      f.decideAt decisionId (req.withPlates plates) nowUnix nowLocal := by
  have hbest := bestPlate_respelled h
  have hclass : matchedClass (req.withPlates plates) = matchedClass req := rfl
  have hlidar : lidarConf f.cfg (req.withPlates plates) = lidarConf f.cfg req := rfl
  unfold decideAt blend
  rw [hclass, hlidar]
  generalize bestPlate req = best at hbest
  generalize bestPlate (req.withPlates plates) = best' at hbest
  cases hbest with
  | none => rfl
  | @some p p' hp =>
    obtain ⟨hplate,hp'⟩ := hp
    have hconf : foldAlprConfidence p = foldAlprConfidence p' := by rw [hp']; rfl
    simp only [respelled_iff.mp hplate, hconf]
    rfl

/-- No call sees how a plate is spelled. -/
theorem perform_respelled (f : FusionEngine) {op op' : Operation} (h : op.RespelledAs op') :
    f.perform op = f.perform op' := by
  cases h with
  | upsert siteId h => rw [perform, perform, AllowlistStore.upsert_respelled h]
  | remove siteId h => rw [perform, perform, AllowlistStore.remove_respelled h]
  | blocklistUpsert siteId reason now h =>
    rw [perform, perform, AllowlistStore.blocklistUpsert_respelled h]
  | blocklistRemove siteId h => rw [perform, perform, AllowlistStore.blocklistRemove_respelled h]
  | lookup siteId h => rw [perform, perform, AllowlistStore.lookup_respelled h]
  | isBlocklisted siteId h => rw [perform, perform, AllowlistStore.isBlocklisted_respelled h]
  | decide decisionId req nowUnix nowLocal h =>
    rw [perform, perform, f.decideAt_respelled decisionId nowUnix nowLocal h]

/-- Two runs that differ in the spelling of plates give the same results. The normalizer is
idempotent, and no spelling of a blocked plate gets past the blocklist. -/
theorem results_independent_of_spelling (f : FusionEngine) {ops ops' : List Operation}
    (h : List.Forall₂ Operation.RespelledAs ops ops') :
    outputs perform f ops = outputs perform f ops' ∧
    (∀ raw, normalizePlate (normalizePlate raw) = normalizePlate raw) ∧
    ∀ (s : AllowlistStore) (siteId raw raw' : Text), Respelled raw raw' →
      s.isBlocklisted siteId raw = s.isBlocklisted siteId raw' :=
  ⟨outputs_congr (fun s _ _ hop => s.perform_respelled hop) f h,normalizePlate_idem,
    fun _ _ _ _ hraw => AllowlistStore.isBlocklisted_respelled hraw⟩

/-- A plate is blocked as `KDA 1` and comes back as `kda-1`. -/
theorem results_of_blocked_plate :
    Respelled [0x4b, 0x44, 0x41, 0x20, 0x31] [0x6b, 0x64, 0x61, 0x2d, 0x31] ∧
    outputs perform {} [.blocklistUpsert [] [0x4b, 0x44, 0x41, 0x20, 0x31] [] 0,
        .isBlocklisted [] [0x4b, 0x44, 0x41, 0x20, 0x31]] =
      outputs perform {} [.blocklistUpsert [] [0x4b, 0x44, 0x41, 0x20, 0x31] [] 0,
        .isBlocklisted [] [0x6b, 0x64, 0x61, 0x2d, 0x31]] := by
  have hspelling : Respelled [0x4b, 0x44, 0x41, 0x20, 0x31] [0x6b, 0x64, 0x61, 0x2d, 0x31] :=
    respelled_iff.mpr (by decide)
  exact ⟨hspelling,(results_independent_of_spelling {} (.cons
    (.blocklistUpsert [] [] 0 (respelled_iff.mpr rfl)) (.cons (.isBlocklisted [] hspelling) .nil))).1⟩

end FusionEngine
end AlprGate.Fusion
