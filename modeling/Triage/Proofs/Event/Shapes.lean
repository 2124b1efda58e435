import Mathlib.Data.List.Basic
import Mathlib.Data.List.Flatten
import Triage.Event.Grouping
import Triage.Proofs.Text.Numerals
import Triage.Proofs.Text.Utf8

/-!
# What the grouping text tells

A report is grouped by its shape: kinds, frames and normalised values of its thrown errors, or its
normalised message, level and platform.  The grouping text joins the pieces of the shape with nothing
between them, so it tells the shape apart from others only together with the layout of the pieces,
that is, how many there are and how long each is (`shape_eq_iff_layout_eq`).  Without the layout
neighbouring pieces run together (`module_runs_into_function`).
-/

namespace Triage

/-! ## Joined texts -/

/-- Texts are determined by what they are joined to, once it is known how long each is. -/
theorem eq_of_join_eq {xs ys : List String} (hJoin : String.join xs = String.join ys)
    (hLengths : xs.map String.length = ys.map String.length) : xs = ys := by
  have hChars : xs.map String.toList = ys.map String.toList := by
    rw [List.eq_iff_flatten_eq, ← List.flatMap_def, ← List.flatMap_def, ← String.toList_join,
      ← String.toList_join, hJoin, List.map_map, List.map_map]
    have hLength : List.length ∘ String.toList = String.length :=
      funext fun _ => String.length_toList
    rw [hLength]
    exact ⟨rfl, hLengths⟩
  exact List.map_injective_iff.mpr (fun _ _ => String.toList_inj.mp) hChars

/-! ## Shapes -/

/-- What a frame contributes to the shape of a report. -/
structure FrameShape where
  module : String
  function : String
  bucket : Int
deriving DecidableEq, Repr

/-- What a thrown error contributes to the shape of a report. -/
structure ThrownShape where
  kind : String
  frames : List FrameShape
  value : String
deriving DecidableEq, Repr

/-- By what a report is grouped. -/
inductive Shape where
  | byStack (thrown : List ThrownShape)
  | message (text level platform : String)
deriving DecidableEq, Repr

def Frame.shape (f : Frame) : FrameShape := ⟨f.module, f.function, bucketStart f.line⟩

def Thrown.shape (t : Thrown) : ThrownShape :=
  ⟨t.kind, t.selectedFrames.map Frame.shape, Message.normalize t.value⟩

/-- The shape of a report. -/
def Report.shape (r : Report) : Shape :=
  if r.groupsByStack then .byStack (r.thrown.map Thrown.shape)
  else .message (Message.normalize r.message) r.level r.platform

/-- The bytes whose digest is the grouping key of a report. -/
def Report.hashedBytes (r : Report) : List UInt8 := Text.utf8 r.groupingText

theorem Report.fingerprint_eq (r : Report) :
    r.fingerprint = Text.hexOfBytes (Digest.md5 r.hashedBytes) := rfl

/-! ## Pieces and layout -/

def FrameShape.pieces (f : FrameShape) : List String :=
  [f.module, f.function, Text.intText f.bucket]

def ThrownShape.pieces (t : ThrownShape) : List String :=
  t.kind :: (t.frames.flatMap FrameShape.pieces ++ [t.value])

/-- The texts of a shape, in the order in which they are joined. -/
def Shape.pieces : Shape → List String
  | .byStack thrown => thrown.flatMap ThrownShape.pieces
  | .message text level platform => [text, level, platform]

/-- How the texts of a shape lie in the text that they are joined to: how many frames each thrown
error has, unless the shape is that of a message, and how long each text is. -/
structure Layout where
  frames : Option (List Nat)
  lengths : List Nat
deriving DecidableEq, Repr

def Shape.layout (s : Shape) : Layout where
  frames :=
    match s with
    | .byStack thrown => some (thrown.map fun t => t.frames.length)
    | .message .. => none
  lengths := s.pieces.map String.length

theorem join_flatMap (f : α → List String) (xs : List α) :
    String.join (xs.flatMap f) = String.join (xs.map fun x => String.join (f x)) := by
  induction xs with
  | nil => rfl
  | cons x xs ih =>
      rw [List.flatMap_cons, String.join_append, List.map_cons, String.join_cons, ih]

theorem join_pieces_frame (f : Frame) : String.join f.shape.pieces = f.groupingText := by
  simp [FrameShape.pieces, Frame.shape, Frame.groupingText, String.append_assoc]

theorem join_pieces_thrown (t : Thrown) : String.join t.shape.pieces = t.groupingText := by
  have hFrames : String.join (t.shape.frames.flatMap FrameShape.pieces) =
      String.join (t.selectedFrames.map Frame.groupingText) := by
    rw [join_flatMap, Thrown.shape, List.map_map]
    exact congrArg String.join (List.map_congr_left fun f _ => join_pieces_frame f)
  rw [ThrownShape.pieces, String.join_cons, String.join_append, hFrames, Thrown.groupingText,
    String.append_assoc]
  simp [Thrown.shape]

/-- The grouping text is what the pieces of the shape are joined to. -/
theorem groupingText_eq_join (r : Report) : r.groupingText = String.join r.shape.pieces := by
  unfold Report.groupingText Report.shape
  split
  · rw [Shape.pieces, join_flatMap, List.map_map]
    exact (congrArg String.join (List.map_congr_left fun t _ => join_pieces_thrown t)).symm
  · simp [Shape.pieces, String.append_assoc]

/-! ## Pieces determine the shape -/

theorem intText_injective {m n : Int} (h : Text.intText m = Text.intText n) : m = n :=
  Text.intDigits_injective (String.ofList_inj.mp h)

theorem FrameShape.eq_of_pieces {xs ys : List FrameShape}
    (h : xs.flatMap FrameShape.pieces = ys.flatMap FrameShape.pieces) : xs = ys := by
  induction xs generalizing ys with
  | nil =>
      cases ys with
      | nil => rfl
      | cons y ys => simp [FrameShape.pieces] at h
  | cons x xs ih =>
      cases ys with
      | nil => simp [FrameShape.pieces] at h
      | cons y ys =>
          simp only [List.flatMap_cons, FrameShape.pieces, List.cons_append, List.nil_append,
            List.cons.injEq] at h
          obtain ⟨hModule, hFunction, hBucket, hRest⟩ := h
          obtain ⟨module, function, bucket⟩ := x
          obtain ⟨module', function', bucket'⟩ := y
          obtain rfl : module = module' := hModule
          obtain rfl : function = function' := hFunction
          obtain rfl : bucket = bucket' := intText_injective hBucket
          rw [ih hRest]

theorem ThrownShape.length_pieces (t : ThrownShape) :
    t.pieces.length = 3 * t.frames.length + 2 := by
  have hFrames : ∀ frames : List FrameShape,
      (frames.flatMap FrameShape.pieces).length = 3 * frames.length := by
    intro frames
    induction frames with
    | nil => rfl
    | cons f frames ih => simp [FrameShape.pieces, ih]; omega
  simp [ThrownShape.pieces, hFrames]

theorem ThrownShape.pieces_injective {t u : ThrownShape} (h : t.pieces = u.pieces) : t = u := by
  obtain ⟨kind, frames, value⟩ := t
  obtain ⟨kind', frames', value'⟩ := u
  obtain ⟨hKind, hRest⟩ := List.cons.inj h
  obtain ⟨hFrames, hValue⟩ := List.append_inj' hRest rfl
  obtain rfl : kind = kind' := hKind
  obtain rfl : frames = frames' := FrameShape.eq_of_pieces hFrames
  obtain rfl : value = value' := (List.cons.inj hValue).1
  rfl

/-- Once it is known where each thrown error ends, the pieces determine the errors. -/
theorem ThrownShape.eq_of_pieces {ts us : List ThrownShape}
    (hCounts : (ts.map fun t => t.frames.length) = us.map fun t => t.frames.length)
    (h : ts.flatMap ThrownShape.pieces = us.flatMap ThrownShape.pieces) : ts = us := by
  induction ts generalizing us with
  | nil =>
      cases us with
      | nil => rfl
      | cons u us => simp at hCounts
  | cons t ts ih =>
      cases us with
      | nil => simp at hCounts
      | cons u us =>
          obtain ⟨hCount, hCounts⟩ := List.cons.inj hCounts
          rw [List.flatMap_cons, List.flatMap_cons] at h
          have hLength : t.pieces.length = u.pieces.length := by
            rw [t.length_pieces, u.length_pieces]
            exact congrArg (3 * · + 2) hCount
          obtain ⟨hFirst, hRest⟩ := List.append_inj h hLength
          rw [ThrownShape.pieces_injective hFirst, ih hCounts hRest]

theorem Shape.eq_of_pieces {s s' : Shape} (hFrames : s.layout.frames = s'.layout.frames)
    (hPieces : s.pieces = s'.pieces) : s = s' := by
  cases s with
  | byStack thrown =>
      cases s' with
      | byStack thrown' =>
          rw [ThrownShape.eq_of_pieces (Option.some.inj hFrames) hPieces]
      | message text level platform => nomatch hFrames
  | message text level platform =>
      cases s' with
      | byStack thrown => nomatch hFrames
      | message text' level' platform' =>
          simpa [Shape.pieces] using hPieces

/-- Two reports with the same grouping text have the same shape exactly when their shapes have the
same layout. -/
theorem shape_eq_iff_layout_eq {r s : Report} (h : r.hashedBytes = s.hashedBytes) :
    r.shape = s.shape ↔ r.shape.layout = s.shape.layout := by
  refine ⟨congrArg Shape.layout, fun hLayout => ?_⟩
  have hJoin : String.join r.shape.pieces = String.join s.shape.pieces := by
    rw [← groupingText_eq_join, ← groupingText_eq_join]
    exact Text.utf8_injective h
  exact Shape.eq_of_pieces (congrArg Layout.frames hLayout)
    (eq_of_join_eq hJoin (congrArg Layout.lengths hLayout))

/-- A report of one error in one frame. -/
def reportOfFrame (eventId module function : String) (line : Int) : Report :=
  ⟨eventId, ⟨10000000000000000⟩, "", "error", "python", "", "", "", [], ⟨"", "", "", "", ""⟩,
    ⟨"", ""⟩, [⟨"ValueError", "bad", "", [⟨function, module, "", "", line, 0, true, "", [], []⟩]⟩],
    none⟩

/-- A line that moves within its bucket makes no difference. -/
theorem shape_eq_within_bucket :
    let r := reportOfFrame "e1" "app.view" "show" 12
    let s := reportOfFrame "e2" "app.view" "show" 17
    r.hashedBytes = s.hashedBytes ∧ r.shape = s.shape := by
  intro r s
  have hBytes : r.hashedBytes = s.hashedBytes :=
    congrArg Text.utf8 (by decide +kernel : r.groupingText = s.groupingText)
  exact ⟨hBytes, (shape_eq_iff_layout_eq hBytes).mpr (by decide +kernel)⟩

/-- A letter that moves from the function to the module makes a different shape with the same
grouping text, and thus with the same grouping key. -/
theorem module_runs_into_function :
    let r := reportOfFrame "e1" "app.view" "show" 12
    let s := reportOfFrame "e2" "app.views" "how" 12
    r.shape ≠ s.shape ∧ r.hashedBytes = s.hashedBytes ∧ r.fingerprint = s.fingerprint := by
  intro r s
  have hBytes : r.hashedBytes = s.hashedBytes :=
    congrArg Text.utf8 (by decide +kernel : r.groupingText = s.groupingText)
  refine ⟨by decide +kernel, hBytes, ?_⟩
  rw [Report.fingerprint_eq, Report.fingerprint_eq, hBytes]

end Triage
