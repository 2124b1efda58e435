import Mathlib.Logic.Relation
import Triage.Proofs.Event.Shapes

/-!
# What grouping does not see

Much of a report can be changed without moving it to another issue.  A retouch is one such change:
to a frame, to the frames of libraries beside those of the application, to the value of a thrown
error, or to anything besides the thrown errors.  No retouch changes the shape of a report that is
grouped by its stacks, nor makes it one that is grouped by its message
(`Report.Retouch.shape_eq`), so neither does any number of them (`fingerprint_of_retouched`).
-/

namespace Triage

/-- A change to a frame that grouping does not see: its line moves within the bucket, or something
besides module, function, line and ownership changes. -/
inductive Frame.Retouch : Frame → Frame → Prop
  | line (f : Frame) (line : Int) (hBucket : line.fdiv lineBucket = f.line.fdiv lineBucket) :
      Retouch f { f with line }
  | surroundings (f : Frame) (filename absPath : String) (column : Int) (contextLine : String)
      (preContext postContext : List String) :
      Retouch f { f with filename, absPath, column, contextLine, preContext, postContext }

/-- A change to a thrown error that grouping does not see.  Beside frames of the application those
of libraries may be any, as long as the former stay as they are, in their order. -/
inductive Thrown.Retouch : Thrown → Thrown → Prop
  | frame (t : Thrown) (before after : List Frame) {f f' : Frame} (h : f.Retouch f') :
      Retouch { t with frames := before ++ f :: after } { t with frames := before ++ f' :: after }
  | libraries (t : Thrown) (frames : List Frame) (hOwn : ∃ f ∈ t.frames, f.inApp = true)
      (hSame : frames.filter (·.inApp) = t.frames.filter (·.inApp)) :
      Retouch t { t with frames }
  | value (t : Thrown) (value : String)
      (hNormal : Message.normalize value = Message.normalize t.value) : Retouch t { t with value }

/-- A change to a report that grouping by stacks does not see. -/
inductive Report.Retouch : Report → Report → Prop
  | thrown (r : Report) (before after : List Thrown) {t t' : Thrown} (h : t.Retouch t') :
      Retouch { r with thrown := before ++ t :: after } { r with thrown := before ++ t' :: after }
  | surroundings {r s : Report} (hThrown : s.thrown = r.thrown) : Retouch r s

/-! ## Frames -/

/-- What the choice of frames and their shapes are read from. -/
def Frame.mark (f : Frame) : Bool × FrameShape := (f.inApp, f.shape)

theorem Frame.Retouch.mark_eq {f f' : Frame} (h : f.Retouch f') : f'.mark = f.mark := by
  cases h with
  | line line hBucket => simp [mark, shape, bucketStart, hBucket]
  | surroundings => rfl

/-! ## Thrown errors -/

/-- The shapes of the selected frames are read from the marks of all frames. -/
theorem Thrown.selected_shapes (t : Thrown) :
    t.selectedFrames.map Frame.shape =
      let marks := t.frames.map Frame.mark
      let own := marks.filter Prod.fst
      (if own.isEmpty then marks else own).map Prod.snd := by
  have hOwn : (t.frames.map Frame.mark).filter Prod.fst =
      (t.frames.filter (·.inApp)).map Frame.mark := by
    rw [List.filter_map]
    rfl
  simp only [selectedFrames, hOwn, List.isEmpty_map]
  split <;> simp [Frame.mark]

/-- Frames of the application are selected, if there are any. -/
theorem Thrown.selectedFrames_own {t : Thrown} (hOwn : ∃ f ∈ t.frames, f.inApp = true) :
    t.selectedFrames = t.frames.filter (·.inApp) := by
  have hSome : (t.frames.filter (·.inApp)).isEmpty = false := by simpa using hOwn
  simp [selectedFrames, hSome]

/-- Stacks with the same frames of the application either both have some or both have none. -/
theorem exists_own_of_filter_eq {frames frames' : List Frame}
    (hSame : frames'.filter (·.inApp) = frames.filter (·.inApp))
    (hOwn : ∃ f ∈ frames, f.inApp = true) : ∃ f ∈ frames', f.inApp = true := by
  obtain ⟨f, hf, hIs⟩ := hOwn
  have hMem : f ∈ frames'.filter (·.inApp) := hSame ▸ List.mem_filter.mpr ⟨hf, hIs⟩
  exact ⟨f, List.mem_filter.mp hMem⟩

theorem Thrown.Retouch.shape_eq {t t' : Thrown} (h : t.Retouch t') : t'.shape = t.shape := by
  cases h with
  | frame t before after h =>
      simp only [shape, selected_shapes, List.map_append, List.map_cons, h.mark_eq]
  | libraries _ frames hOwn hSame =>
      have hOwn' := exists_own_of_filter_eq hSame hOwn
      simp only [shape, selectedFrames_own hOwn, selectedFrames_own (t := { t with frames }) hOwn',
        hSame]
  | value _ value hNormal => simp [shape, selectedFrames, hNormal]

/-- No frame is added to a stack without frames, nor is the last frame of a stack removed. -/
theorem Thrown.Retouch.frames_isEmpty {t t' : Thrown} (h : t.Retouch t') :
    t'.frames.isEmpty = t.frames.isEmpty := by
  cases h with
  | frame _ before => cases before <;> rfl
  | libraries _ frames hOwn hSame =>
      obtain ⟨f', hf', -⟩ := exists_own_of_filter_eq hSame hOwn
      obtain ⟨f, hf, -⟩ := hOwn
      rw [List.isEmpty_eq_false_iff_exists_mem.mpr ⟨f, hf⟩,
        List.isEmpty_eq_false_iff_exists_mem.mpr ⟨f', hf'⟩]
  | value => rfl

/-! ## Reports -/

theorem Report.Retouch.groupsByStack_eq {r s : Report} (h : r.Retouch s) :
    s.groupsByStack = r.groupsByStack := by
  cases h with
  | thrown r before after h =>
      cases before with
      | nil => simp [groupsByStack, h.frames_isEmpty]
      | cons first before => rfl
  | surroundings hThrown => simp only [groupsByStack, hThrown]

/-- A retouch leaves the shape of a report that is grouped by its stacks. -/
theorem Report.Retouch.shape_eq {r s : Report} (h : r.Retouch s) (hStack : r.groupsByStack = true) :
    s.shape = r.shape := by
  have hStack' : s.groupsByStack = true := h.groupsByStack_eq.trans hStack
  rw [shape, shape, if_pos hStack, if_pos hStack']
  cases h with
  | thrown r before after h => simp [h.shape_eq]
  | surroundings hThrown => rw [hThrown]

/-- The grouping key is read from the shape. -/
theorem Report.fingerprint_congr {r s : Report} (h : s.shape = r.shape) :
    s.fingerprint = r.fingerprint := by
  rw [fingerprint_eq, fingerprint_eq, hashedBytes, hashedBytes, groupingText_eq_join,
    groupingText_eq_join, h]

/-- However often a report that is grouped by its stacks is retouched, it is still grouped by its
stacks and keeps its grouping key. -/
theorem fingerprint_of_retouched {r s : Report} (hStack : r.groupsByStack = true)
    (h : Relation.ReflTransGen Report.Retouch r s) :
    s.groupsByStack = true ∧ s.fingerprint = r.fingerprint := by
  induction h with
  | refl => exact ⟨hStack, rfl⟩
  | tail _ hLast ih =>
      obtain ⟨hStill, hSame⟩ := ih
      exact ⟨hLast.groupsByStack_eq.trans hStill,
        (Report.fingerprint_congr (hLast.shape_eq hStill)).trans hSame⟩

/-- A frame of a library. -/
def libraryFrame (function : String) (line : Int) : Frame :=
  ⟨function, "lib.http", "", "", line, 0, false, "", [], []⟩

/-- A report of two errors, of which the second one was thrown in a library. -/
def reportOfRequest (message value : String) (frames : List Frame) : Report :=
  ⟨"e1", ⟨10000000000000000⟩, message, "error", "python", "", "", "", [], ⟨"", "", "", "", ""⟩,
    ⟨"", ""⟩, [⟨"ValueError", value, "", frames⟩, ⟨"OSError", "", "", [libraryFrame "send" 40]⟩],
    none⟩

/-- The line moves within its bucket below zero, another library calls in place of the first one, the
value names another row, and the message is another one. -/
theorem request_retouched :
    let own (line : Int) : Frame := ⟨"show", "app.view", "", "", line, 0, true, "", [], []⟩
    let r := reportOfRequest "first" "no row 1234567" [libraryFrame "read" 12, own (-3)]
    let s := reportOfRequest "second" "no row 7654321" [own (-10), libraryFrame "write" 7]
    r.groupsByStack = true ∧ Relation.ReflTransGen Report.Retouch r s ∧
      s.groupsByStack = true ∧ s.fingerprint = r.fingerprint := by
  intro own r s
  let first (value : String) (frames : List Frame) : Report := reportOfRequest "first" value frames
  let t : Thrown := ⟨"ValueError", "no row 1234567", "", []⟩
  let later : List Thrown := [⟨"OSError", "", "", [libraryFrame "send" 40]⟩]
  have hLine : r.Retouch (first "no row 1234567" [libraryFrame "read" 12, own (-10)]) :=
    .thrown r [] later (.frame t [libraryFrame "read" 12] [] (.line (own (-3)) (-10) (by decide)))
  have hLibraries : (first "no row 1234567" [libraryFrame "read" 12, own (-10)]).Retouch
      (first "no row 1234567" [own (-10), libraryFrame "write" 7]) :=
    .thrown r [] later (.libraries _ _ (by decide) (by decide))
  have hValue : (first "no row 1234567" [own (-10), libraryFrame "write" 7]).Retouch
      (first "no row 7654321" [own (-10), libraryFrame "write" 7]) :=
    .thrown r [] later (.value _ _ (by decide +kernel))
  have hMessage : (first "no row 7654321" [own (-10), libraryFrame "write" 7]).Retouch s :=
    .surroundings rfl
  have hAll : Relation.ReflTransGen Report.Retouch r s :=
    (((Relation.ReflTransGen.single hLine).tail hLibraries).tail hValue).tail hMessage
  exact ⟨rfl, hAll, fingerprint_of_retouched rfl hAll⟩

end Triage
