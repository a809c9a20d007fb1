import AlprGate.Library.Ranking
import AlprGate.Server.CropBoxes
import AlprGate.Server.CtcDecode
import AlprGate.Server.Fusion
import AlprGate.Server.ScenarioSource

/-! # From a frame to plates

The detector's boxes are filtered, mapped back to the frame and sorted by score; the best are
cropped and read, and what was read goes to the server as observations. The engines are parameters:
what the detector's network puts out, and the tensor of the recognizer's network for each crop.
Scores and coordinates are finite numbers here and the arithmetic is exact; a score that is no
number would pass the floor and has no place in the order of the sort.
-/
namespace AlprGate.Inference
open Auth Ranking

/-- `cv::Mat`, as far as it is looked at. -/
structure Mat where
  size : FrameSize
  bgr : Bool := true
  width_lt : size.width < 2 ^ 31
  height_lt : size.height < 2 ^ 31

/-- One row of the detector's output tensors: corners on the canvas, score and class. -/
structure RawDetection where
  x1 : ℚ
  y1 : ℚ
  x2 : ℚ
  y2 : ℚ
  score : ℚ
  classId : BitVec 32 := 0
  deriving DecidableEq, Repr

/-- The output tensors; there are `max_detections` rows, however many are filled. -/
structure NmsOutput where
  numDets : BitVec 32
  rows : List RawDetection
  deriving DecidableEq, Repr

structure PlateDetection where
  box : Rect2f
  confidence : ℚ
  classId : BitVec 32
  deriving DecidableEq, Repr

structure PlateReading where
  box : Rect2f
  text : Text
  detectionScore : ℚ
  ocrScore : ℚ
  deriving DecidableEq, Repr

structure PlateObservation where
  text : Text
  detectionConf : ℚ
  ocrConf : ℚ
  box : Vision.PixelBox
  deriving DecidableEq, Repr

structure DetectorConfig where
  input : FrameSize := ⟨640,640⟩
  confidenceFloor : ℚ := 1 / 4

structure PipelineConfig extends DetectorConfig where
  cropMargin : ℚ := 2 / 25
  maxPlatesPerFrame : BitVec 32 := 8

/-- The recognizer behind its network. -/
structure Recognizer where
  seqLen : ℤ
  numClasses : ℤ
  dictionary : List Text
  logits : Rect → List ℚ

def Recognizer.recognize (r : Recognizer) (crop : Rect) : CtcResult :=
  ctcGreedyDecode (r.logits crop) r.seqLen r.numClasses r.dictionary

/-- What is thrown: by the checks of the detector, by the resize to an empty image, by `reserve`
with a negative number, and by a region outside of its image. -/
inductive Fault where
  | emptyImage
  | notBgr
  | emptyResize
  | lengthError
  | roi
  deriving DecidableEq, Repr

instance decidableInFrame (r : Rect) (frame : FrameSize) : Decidable (r.InFrame frame) :=
  decidable_of_iff (0 ≤ r.x ∧ 0 ≤ r.y ∧ r.x + r.width ≤ frame.width ∧ r.y + r.height ≤ frame.height)
    ⟨fun h => ⟨h.1,h.2.1,h.2.2.1,h.2.2.2⟩,fun h => ⟨h.1,h.2,h.3,h.4⟩⟩

section Pipeline
variable (cfg : PipelineConfig)

/-- The body of the decoding loop. -/
def decodeRow (floor : ℚ) (lb : LetterboxParams) (src : FrameSize) (raw : RawDetection) :
    Option PlateDetection :=
  if raw.score < floor then none
  else
    let unmapped := unmapLetterboxBox raw.x1 raw.y1 raw.x2 raw.y2 lb src
    if unmapped.width ≤ 0 ∨ unmapped.height ≤ 0 then none
    else some ⟨unmapped,raw.score,raw.classId⟩

/-- The decoded rows, in the order of the tensors. -/
def candidates (floor : ℚ) (lb : LetterboxParams) (src : FrameSize) (out : NmsOutput) :
    List PlateDetection :=
  (out.rows.take (min out.numDets.toInt out.rows.length).toNat).filterMap (decodeRow floor lb src)

def detect (cfg : DetectorConfig) (sorter : Descending PlateDetection.confidence) (frame : Mat)
    (out : NmsOutput) : Except Fault (List PlateDetection) :=
  if frame.size.width = 0 ∨ frame.size.height = 0 then .error .emptyImage
  else if frame.bgr = false then .error .notBgr
  else if hresized : 0 < (letterboxPlace frame.size cfg.input).width ∧
      0 < (letterboxPlace frame.size cfg.input).height then
    -- the part of the canvas that the resized frame is copied to
    if (letterboxPlace frame.size cfg.input).InFrame cfg.input then
      if min out.numDets.toInt out.rows.length < 0 then .error .lengthError
      else .ok (sorter.sort (candidates cfg.confidenceFloor
        (letterbox frame.size cfg.input hresized.1) frame.size out))
    else .error .roi
  else .error .emptyResize

/-- `expand_and_clamp_`. -/
def region (frame : Mat) (d : PlateDetection) : Rect :=
  expandBoxWithMargin d.box frame.size cfg.cropMargin 1

/-- The crops and the detections they are of, side by side. -/
structure Batch where
  crops : List Rect := []
  kept : List PlateDetection := []

/-- The body of the cropping loop. -/
def addCrop (frame : Mat) (b : Batch) (d : PlateDetection) : Except Fault Batch :=
  let roi := region cfg frame d
  if roi.width < 4 ∨ roi.height < 4 then .ok b
  else if roi.InFrame frame.size then .ok ⟨b.crops ++ [roi],b.kept ++ [d]⟩
  else .error .roi

/-- The `i`-th detection with the `i`-th text. -/
def reading (d : PlateDetection) (r : CtcResult) : PlateReading :=
  ⟨d.box,r.text,d.confidence,r.meanConfidence⟩

def process (sorter : Descending PlateDetection.confidence) (rec : Recognizer) (frame : Mat)
    (out : NmsOutput) : Except Fault (List PlateReading) := do
  let detections ← detect cfg.toDetectorConfig sorter frame out
  if detections = [] then .ok []
  else
    let nKeep := min detections.length (max 0 cfg.maxPlatesPerFrame.toInt).toNat
    let b ← (detections.take nKeep).foldlM (addCrop cfg frame) {}
    if b.crops = [] then .ok []
    else .ok (List.zipWith reading b.kept (b.crops.map rec.recognize))

/-- A coordinate for the wire. -/
def toPixel (v : ℤ) : BitVec 32 := BitVec.ofInt 32 (max 0 v)

def toPixelBox (r : Rect2f) : Vision.PixelBox :=
  ⟨toPixel ⌊r.x⌋,toPixel ⌊r.y⌋,toPixel ⌈r.width⌉,toPixel ⌈r.height⌉⟩

def PlateReading.observation (r : PlateReading) : PlateObservation :=
  ⟨r.text,r.detectionScore,r.ocrScore,toPixelBox r.box⟩

/-- The plates of `CameraSource::next`: readings without text are left out. -/
def observePlates (sorter : Descending PlateDetection.confidence) (rec : Recognizer) (frame : Mat)
    (out : NmsOutput) : Except Fault (List PlateObservation) := do
  let readings ← process cfg sorter rec frame out
  .ok ((readings.filter fun r => r.text ≠ []).map PlateReading.observation)

/-- A plate as the server has it. -/
def PlateObservation.fused (o : PlateObservation) : Fusion.PlateDetection :=
  ⟨o.text,o.detectionConf,o.ocrConf⟩

end Pipeline

/-! ### Crops -/

section Crops
variable (cfg : PipelineConfig) (frame : Mat)

/-- Large enough to be read. -/
def Legible (d : PlateDetection) : Prop :=
  4 ≤ (region cfg frame d).width ∧ 4 ≤ (region cfg frame d).height

instance decidableLegible (d : PlateDetection) : Decidable (Legible cfg frame d) :=
  inferInstanceAs (Decidable (_ ∧ _))

variable {cfg frame}

theorem Legible.inFrame {d : PlateDetection} (h : Legible cfg frame d) :
    (region cfg frame d).InFrame frame.size := by
  rcases expandBoxWithMargin_cases d.box frame.size cfg.cropMargin 1 with hempty | ⟨hr,_,_⟩
  · have hwidth := h.1
    rw [show region cfg frame d = {} from hempty] at hwidth
    exact absurd hwidth (by decide)
  · obtain ⟨hx,hright⟩ := rounded_inside d.box.x d.box.width cfg.cropMargin frame.size.width
    obtain ⟨hy,hbottom⟩ := rounded_inside d.box.y d.box.height cfg.cropMargin frame.size.height
    rw [show region cfg frame d = _ from hr]
    exact ⟨hx,hy,hright,hbottom⟩

/-- No region throws. -/
theorem addCrop_eq (b : Batch) (d : PlateDetection) :
    addCrop cfg frame b d = .ok (if Legible cfg frame d then
      ⟨b.crops ++ [region cfg frame d],b.kept ++ [d]⟩ else b) := by
  unfold addCrop
  by_cases h : Legible cfg frame d
  · have hlarge : ¬ ((region cfg frame d).width < 4 ∨ (region cfg frame d).height < 4) :=
      not_or.mpr ⟨not_lt.mpr h.1,not_lt.mpr h.2⟩
    simp only [if_neg hlarge, if_pos h.inFrame, if_pos h]
  · have hsmall : (region cfg frame d).width < 4 ∨ (region cfg frame d).height < 4 := by
      by_contra hlarge
      exact h ⟨not_lt.mp (not_or.mp hlarge).1,not_lt.mp (not_or.mp hlarge).2⟩
    simp only [if_pos hsmall, if_neg h]

theorem foldlM_addCrop (ds : List PlateDetection) (b : Batch) :
    ds.foldlM (addCrop cfg frame) b = .ok
      ⟨b.crops ++ (ds.filter (Legible cfg frame ·)).map (region cfg frame),
        b.kept ++ ds.filter (Legible cfg frame ·)⟩ := by
  induction ds generalizing b with
  | nil => simp [pure, Except.pure]
  | cons d ds ih =>
    rw [List.foldlM_cons, addCrop_eq]
    by_cases h : Legible cfg frame d
    · rw [if_pos h, List.filter_cons_of_pos (by simpa using h)]
      refine (ih _).trans ?_
      simp
    · rw [if_neg h, List.filter_cons_of_neg (by simpa using h)]
      exact ih b

/-- How many plates are read at most. -/
def plateLimit (cfg : PipelineConfig) : ℕ := (max 0 cfg.maxPlatesPerFrame.toInt).toNat

/-- Each detection is read in its own crop. -/
def readingOf (cfg : PipelineConfig) (frame : Mat) (rec : Recognizer) (d : PlateDetection) :
    PlateReading :=
  reading d (rec.recognize (region cfg frame d))

variable {sorter : Descending PlateDetection.confidence} {out : NmsOutput}
  {ds : List PlateDetection} (rec : Recognizer)

theorem process_eq (h : detect cfg.toDetectorConfig sorter frame out = .ok ds) :
    process cfg sorter rec frame out = .ok
      (((ds.take (plateLimit cfg)).filter (Legible cfg frame ·)).map
        (readingOf cfg frame rec)) := by
  have hcut : ds.take (min ds.length (plateLimit cfg)) = ds.take (plateLimit cfg) := by
    rw [Nat.min_comm, ← List.take_eq_take_min]
  unfold process
  rw [h]
  change (if ds = [] then _ else _) = _
  by_cases hds : ds = []
  · rw [if_pos hds, hds, List.take_nil]
    rfl
  · rw [if_neg hds, ← plateLimit, hcut, foldlM_addCrop]
    change (if [] ++ _ = [] then _ else _) = _
    rw [List.nil_append, List.nil_append]
    by_cases hnone : (ds.take (plateLimit cfg)).filter (Legible cfg frame ·) = []
    · rw [hnone]
      rfl
    · rw [if_neg (by simpa using hnone), List.map_map, List.zipWith_map_right, List.zipWith_self]
      rfl

/-- Large enough, and something was read. -/
def Read (cfg : PipelineConfig) (frame : Mat) (rec : Recognizer) (d : PlateDetection) : Prop :=
  Legible cfg frame d ∧ (rec.recognize (region cfg frame d)).text ≠ []

instance decidableRead (cfg : PipelineConfig) (frame : Mat) (rec : Recognizer)
    (d : PlateDetection) : Decidable (Read cfg frame rec d) :=
  inferInstanceAs (Decidable (_ ∧ _))

def observationOf (cfg : PipelineConfig) (frame : Mat) (rec : Recognizer) (d : PlateDetection) :
    PlateObservation :=
  (readingOf cfg frame rec d).observation

theorem observePlates_eq (h : detect cfg.toDetectorConfig sorter frame out = .ok ds) :
    observePlates cfg sorter rec frame out = .ok
      (((ds.take (plateLimit cfg)).filter (Read cfg frame rec ·)).map
        (observationOf cfg frame rec)) := by
  unfold observePlates
  rw [process_eq rec h]
  refine congrArg Except.ok ?_
  rw [List.filter_map, List.map_map, List.filter_filter]
  refine congrArg _ (List.filter_congr ?_)
  intro d _
  rw [Bool.and_comm]
  exact (Bool.decide_and (Legible cfg frame d) _).symm

end Crops

/-! ### Detections -/

/-- The box lies in the frame, and so do the pixels that are sent for it. -/
def Rect2f.Inside (box : Rect2f) (size : FrameSize) : Prop :=
  (0 ≤ box.x ∧ 0 ≤ box.width ∧ box.x + box.width ≤ size.width) ∧
    0 ≤ box.y ∧ 0 ≤ box.height ∧ box.y + box.height ≤ size.height

theorem toPixel_toNat {v : ℤ} (h0 : 0 ≤ v) (h : v < 2 ^ 32) : ((toPixel v).toNat : ℤ) = v := by
  rw [toPixel, max_eq_right h0, BitVec.toNat_ofInt]
  have hmod : v % ((2 ^ 32 : ℕ) : ℤ) = v := Int.emod_eq_of_lt h0 (by simpa using h)
  rw [hmod, Int.toNat_of_nonneg h0]

/-- On one axis. -/
theorem pixels_inside {origin extent : ℚ} {size : ℕ} (h0 : 0 ≤ origin) (hextent : 0 ≤ extent)
    (hend : origin + extent ≤ size) (hsize : size < 2 ^ 31) :
    (toPixel ⌊origin⌋).toNat + (toPixel ⌈extent⌉).toNat ≤ size := by
  have hfloor : 0 ≤ ⌊origin⌋ := Int.floor_nonneg.mpr h0
  have hceil : 0 ≤ ⌈extent⌉ := Int.ceil_nonneg hextent
  have hsum : ⌈extent⌉ ≤ (size : ℤ) - ⌊origin⌋ := by
    rw [Int.ceil_le]
    have hle := Int.floor_le origin
    push_cast
    linarith
  have horigin := toPixel_toNat hfloor (by omega)
  have hext := toPixel_toNat hceil (by omega)
  omega

theorem decodeRow_eq_some {floor : ℚ} {lb : LetterboxParams} {src : FrameSize} {raw : RawDetection}
    {d : PlateDetection} (h : decodeRow floor lb src raw = some d) :
    floor ≤ d.confidence ∧ d.box.Inside src := by
  unfold decodeRow at h
  split at h
  · cases h
  rename_i hfloor
  dsimp only at h
  split at h
  · cases h
  cases h
  exact ⟨not_lt.mp hfloor,unmapLetterboxBox_inside raw.x1 raw.y1 raw.x2 raw.y2 lb src⟩

/-- A frame that the detector accepts. -/
structure Mat.Readable (frame : Mat) (cfg : DetectorConfig) : Prop where
  nonempty : frame.size.Nonempty
  bgr : frame.bgr = true
  resized : 0 < (letterboxPlace frame.size cfg.input).width ∧
    0 < (letterboxPlace frame.size cfg.input).height

section Main
variable {cfg : PipelineConfig} {frame : Mat} (h : frame.Readable cfg.toDetectorConfig)
  (sorter : Descending PlateDetection.confidence) (rec : Recognizer) (out : NmsOutput)

/-- What the detector has found, in the order of the network. -/
def Mat.Readable.found : List PlateDetection :=
  candidates cfg.confidenceFloor (letterbox frame.size cfg.input h.resized.1) frame.size out

/-- The checks of the detector and the letterbox pass. -/
theorem detect_readable :
    detect cfg.toDetectorConfig sorter frame out =
      if min out.numDets.toInt out.rows.length < 0 then .error .lengthError
      else .ok (sorter.sort (h.found out)) := by
  have hnonempty : ¬ (frame.size.width = 0 ∨ frame.size.height = 0) :=
    not_or.mpr ⟨h.nonempty.1.ne',h.nonempty.2.ne'⟩
  have hbgr : ¬ frame.bgr = false := by rw [h.bgr]; exact Bool.noConfusion
  unfold detect
  rw [if_neg hnonempty, if_neg hbgr, dif_pos h.resized,
    if_pos (letterboxPlace_inFrame h.nonempty)]
  rfl

include h in
theorem detect_negative (hcount : out.numDets.toInt < 0) :
    detect cfg.toDetectorConfig sorter frame out = .error .lengthError := by
  rw [detect_readable h, if_pos (lt_of_le_of_lt (min_le_left _ _) hcount)]

theorem detect_eq (hcount : 0 ≤ out.numDets.toInt) :
    detect cfg.toDetectorConfig sorter frame out = .ok (sorter.sort (h.found out)) := by
  have hmin : ¬ min out.numDets.toInt out.rows.length < 0 :=
    not_lt.mpr (le_min hcount (Int.natCast_nonneg _))
  rw [detect_readable h, if_neg hmin]

theorem found_inside {d : PlateDetection} (hd : d ∈ h.found out) :
    cfg.confidenceFloor ≤ d.confidence ∧ d.box.Inside frame.size := by
  obtain ⟨raw,_,hraw⟩ := List.mem_filterMap.mp hd
  exact decodeRow_eq_some hraw

/-- The scan of the server ends at the first plate of a descending list. -/
theorem bestPlate_of_descending {plates : List PlateObservation}
    (hsorted : plates.Pairwise fun o o' => o'.detectionConf ≤ o.detectionConf)
    (hfloor : ∀ o ∈ plates, -1 < o.detectionConf) {req : Fusion.AuthorizeRequest}
    (hreq : req.frame.plates = plates.map PlateObservation.fused) :
    Fusion.bestPlate req = plates.head?.map PlateObservation.fused := by
  have hbest := Selection.best_spec Fusion.PlateDetection.detectionConf (-1) req.frame.plates
  unfold Fusion.bestPlate Fusion.pickBestPlate
  rw [Rat.cast_id]
  rw [hreq] at hbest ⊢
  cases plates with
  | nil => rfl
  | cons o plates =>
    rcases hbest with ⟨_,hlow⟩ | ⟨x,hx,_,hmax⟩
    · exact absurd (hfloor o List.mem_cons_self) (not_lt.mpr (hlow o.fused List.mem_cons_self))
    · have hdesc : ((o :: plates).map PlateObservation.fused).Pairwise
          fun a b => b.detectionConf ≤ a.detectionConf := List.pairwise_map.mpr hsorted
      rw [hx, hmax.unique (firstMax_of_pairwise hdesc)]
      rfl

/-- The observations are the legible plates among the best-scored boxes, each with the text of its
own crop, in the order of their scores; a box takes its place among the best also if it turns out
to be too small. The server decides on the first. -/
theorem camera_reports_best :
    (out.numDets.toInt < 0 → observePlates cfg sorter rec frame out = .error .lengthError) ∧
    (0 ≤ out.numDets.toInt → ∃ plates, observePlates cfg sorter rec frame out = .ok plates ∧
      plates.length ≤ plateLimit cfg ∧
      plates.Pairwise (fun o o' => o'.detectionConf ≤ o.detectionConf) ∧
      (∀ o ∈ plates, o.text ≠ [] ∧
        o.box.x.toNat + o.box.width.toNat ≤ frame.size.width ∧
        o.box.y.toNat + o.box.height.toNat ≤ frame.size.height ∧
        ∃ d ∈ h.found out, o = observationOf cfg frame rec d ∧ Legible cfg frame d ∧
          (region cfg frame d).InFrame frame.size ∧
          (h.found out).countP (fun c => d.confidence < c.confidence) < plateLimit cfg) ∧
      (∀ d ∈ h.found out, Legible cfg frame d →
        (rec.recognize (region cfg frame d)).text ≠ [] →
        (h.found out).countP (fun c => d.confidence ≤ c.confidence) ≤ plateLimit cfg →
        observationOf cfg frame rec d ∈ plates) ∧
      (-1 < cfg.confidenceFloor → ∀ req : Fusion.AuthorizeRequest,
        req.frame.plates = plates.map PlateObservation.fused →
        Fusion.bestPlate req = plates.head?.map PlateObservation.fused)) := by
  refine ⟨?_,?_⟩
  · intro hcount
    unfold observePlates process
    rw [detect_negative h sorter out hcount]
    rfl
  · intro hcount
    have hplates := observePlates_eq rec (detect_eq h sorter out hcount)
    have hread {d : PlateDetection}
        (hd : d ∈ ((sorter.sort (h.found out)).take (plateLimit cfg)).filter
          (Read cfg frame rec ·)) :
        d ∈ (sorter.sort (h.found out)).take (plateLimit cfg) ∧ Read cfg frame rec d := by
      simpa using hd
    refine ⟨_,hplates,?_,?_,?_,?_,?_⟩
    · rw [List.length_map]
      exact (List.length_filter_le _ _).trans (List.length_take_le _ _)
    · refine List.pairwise_map.mpr ?_
      exact ((sorter.sorted _).sublist (List.take_sublist _ _)).sublist List.filter_sublist
    · intro o ho
      obtain ⟨d,hd,rfl⟩ := List.mem_map.mp ho
      obtain ⟨hbest,hlegible,htext⟩ := hread hd
      have hfound := mem_of_mem_take sorter hbest
      obtain ⟨⟨hx,hwidth,hright⟩,hy,hheight,hbottom⟩ := (found_inside h out hfound).2
      exact ⟨htext,pixels_inside hx hwidth hright frame.width_lt,
        pixels_inside hy hheight hbottom frame.height_lt,d,hfound,rfl,hlegible,hlegible.inFrame,
        countP_lt_of_mem_take sorter hbest⟩
    · intro d hfound hlegible htext hrank
      refine List.mem_map_of_mem ?_
      have hbest := mem_take_of_countP_le sorter hfound hrank
      have hboth : Read cfg frame rec d := ⟨hlegible,htext⟩
      simpa using And.intro hbest hboth
    · intro hfloor req hreq
      refine bestPlate_of_descending ?_ ?_ hreq
      · refine List.pairwise_map.mpr ?_
        exact ((sorter.sorted _).sublist (List.take_sublist _ _)).sublist List.filter_sublist
      · intro o ho
        obtain ⟨d,hd,rfl⟩ := List.mem_map.mp ho
        have hfound := mem_of_mem_take sorter (hread hd).1
        exact hfloor.trans_le (found_inside h out hfound).1

end Main

/-- A yard of 64 by 64 pixels, and a canvas of the same size. -/
def yardSize : FrameSize := ⟨64,64⟩

theorem yardSize_lt : yardSize.width < 2 ^ 31 ∧ yardSize.height < 2 ^ 31 := by decide

def yard : Mat := ⟨yardSize,true,yardSize_lt.1,yardSize_lt.2⟩

/-- One plate per frame. -/
def onePlate : PipelineConfig := { input := yardSize, maxPlatesPerFrame := 1 }

/-- Reads the same letter everywhere. -/
def letterA : Recognizer := ⟨1,2,[[0x41]],fun _ => [0,1]⟩

/-- A plate, alone and next to a speck with a better score. -/
def plateAlone : NmsOutput := ⟨1,[⟨8,8,40,24,8 / 10,0⟩]⟩

def speckFirst : NmsOutput := ⟨2,⟨0,0,2,2,9 / 10,0⟩ :: plateAlone.rows⟩

theorem yard_readable : yard.Readable onePlate.toDetectorConfig where
  nonempty := ⟨by decide,by decide⟩
  bgr := rfl
  resized := by decide +kernel

/-- The speck takes the only place and nothing is reported; alone the plate is. -/
theorem camera_reports_best_speck :
    observePlates onePlate (.stable _) letterA yard speckFirst = .ok [] ∧
      ∃ plates, observePlates onePlate (.stable _) letterA yard plateAlone = .ok plates ∧
        plates.length ≤ 1 ∧ observationOf onePlate yard letterA ⟨⟨8,8,32,16⟩,4 / 5,0⟩ ∈ plates := by
  refine ⟨by decide +kernel,?_⟩
  obtain ⟨plates,hplates,hlength,_,_,hall,_⟩ :=
    (camera_reports_best yard_readable (.stable _) letterA plateAlone).2 (by decide)
  exact ⟨plates,hplates,hlength,hall _ (by decide +kernel) (by decide +kernel) (by decide +kernel)
    (by decide +kernel)⟩

end AlprGate.Inference
