import CanvasScript.FrameMarker
import CanvasScript.Proofs.Except
import CanvasScript.Raster
import CanvasScript.Surface.Recording

/-!
# What drawings keep

A drawing changes what is seen on a surface (`DrawingSurface`), and the transform in use. Some
things it never changes, whether it succeeds or fails half way.

* `Keeps f x`: what `f` tells of a state is the same after the run `x` as before.
* `FramedSurface`: a surface has a frame of its own, which shapes leave alone.
* `LawfulSurface`: the frame and the drawn things of a surface are apart from each other, and
  clearing takes away all that was drawn. Recordings and raster surfaces are lawful.
* `Unmoved f`: transforms, shapes and frames of their own keep `f`. So every drawing that is built
  of them does. `UnmovedIn kind f` asks this of shapes in colours of a kind only.

Results:
* `unmoved_saved`: **the remembered transforms are unmoved**.
* `unmoved_blank`: **what is left after clearing is unmoved**.
* `frame_framed`: **what is framed leaves the frame as it was**, also where it fails.
-/

namespace CanvasScript

/-- A frame that remembers what another one does behind a save is restored to that one. -/
theorem Frame.restore_eq {α : Type} {frame inner : Frame α}
    (hsaved : inner.saved = frame.save.saved) : inner.restore = frame := by
  unfold restore
  rw [hsaved]
  rfl

/-! ## Runs that keep something -/

section

variable {ε β γ σ τ : Type} {f : σ → τ}

/-- What is told of a state is the same after a run as before, whether it succeeds or fails. -/
def Keeps (f : σ → τ) (x : ExceptT ε (StateM σ) β) : Prop := ∀ s, f (x s).2 = f s

namespace Keeps

theorem pure (b : β) : Keeps f (pure b : ExceptT ε (StateM σ) β) := fun _ => rfl

theorem computed (result : Except ε β) :
    Keeps f (ExceptT.mk (Pure.pure result) : ExceptT ε (StateM σ) β) := fun _ => rfl

theorem bind {x : ExceptT ε (StateM σ) β} {g : β → ExceptT ε (StateM σ) γ} (hx : Keeps f x)
    (hg : ∀ b, Keeps f (g b)) : Keeps f (x >>= g) := by
  intro s
  have hs := hx s
  rcases hrun : x s with ⟨e | b, between⟩
  · rw [run_bind_error hrun]
    rwa [hrun] at hs
  · rw [run_bind_ok hrun, hg b between]
    rwa [hrun] at hs

theorem forM {g : β → ExceptT ε (StateM σ) PUnit} :
    ∀ {items : List β}, (∀ b ∈ items, Keeps f (g b)) → Keeps f (items.forM g)
  | [], _ => Keeps.pure ()
  | b :: _, h =>
    (h b List.mem_cons_self).bind fun _ => forM fun c hc => h c (List.mem_cons_of_mem b hc)

theorem ite {p : Prop} [Decidable p] {x y : ExceptT ε (StateM σ) β} (hx : Keeps f x)
    (hy : Keeps f y) : Keeps f (if p then x else y) := by
  split
  · exact hx
  · exact hy

theorem adapt {δ : Type} {x : ExceptT ε (StateM σ) β} (hx : Keeps f x) (adapter : ε → δ) :
    Keeps f (x.adapt adapter) := hx

end Keeps

end

/-! ## Lawful surfaces -/

/-- A surface with a frame of its own, which shapes leave alone, also those that cannot be drawn. -/
class FramedSurface {α : outParam Type} (σ : Type) [Surface α σ] : Prop where
  frame_withFrame : ∀ (s : σ) (frame : Frame α), Surface.frame (Surface.withFrame s frame) = frame
  frame_paint : ∀ (s : σ) (shape : Shape α) (width : Number α) (color : Rgba),
    Surface.frame ((Surface.paint shape width color : Drawing σ Unit) s).2 = Surface.frame s

/-- A surface whose frame is apart from what is drawn on it, and which clearing takes back to where
nothing was drawn. -/
class LawfulSurface {α : outParam Type} (σ : Type) [Surface α σ] : Prop where
  frame_withFrame : ∀ (s : σ) (frame : Frame α), Surface.frame (Surface.withFrame s frame) = frame
  withFrame_withFrame : ∀ (s : σ) (frame frame' : Frame α),
    Surface.withFrame (Surface.withFrame s frame) frame' = Surface.withFrame s frame'
  frame_clear : ∀ s : σ, Surface.frame (Surface.clear s) = Surface.frame s
  clear_clear : ∀ s : σ, Surface.clear (Surface.clear s) = Surface.clear s
  clear_withFrame : ∀ (s : σ) (frame : Frame α),
    Surface.clear (Surface.withFrame s frame) = Surface.withFrame (Surface.clear s) frame
  frame_paint : ∀ (s : σ) (shape : Shape α) (width : Number α) (color : Rgba),
    Surface.frame ((Surface.paint shape width color : Drawing σ Unit) s).2 = Surface.frame s
  clear_paint : ∀ (s : σ) (shape : Shape α) (width : Number α) (color : Rgba),
    Surface.clear ((Surface.paint shape width color : Drawing σ Unit) s).2 = Surface.clear s

instance {α σ : Type} [Surface α σ] [LawfulSurface σ] : FramedSurface σ where
  frame_withFrame := LawfulSurface.frame_withFrame
  frame_paint := LawfulSurface.frame_paint

instance {α : Type} : LawfulSurface (Recording α) where
  frame_withFrame _ _ := rfl
  withFrame_withFrame _ _ _ := rfl
  frame_clear _ := rfl
  clear_clear _ := rfl
  clear_withFrame _ _ := rfl
  frame_paint _ _ _ _ := rfl
  clear_paint _ _ _ _ := rfl

/-- A canvas keeps its size when it is painted, so it is filled alike. -/
theorem Canvas.fill_paint (canvas : Canvas) (mask : Mask) (color background : Rgba) :
    (canvas.paint mask color).fill background = canvas.fill background := by
  unfold paint
  split <;> rfl

instance {α : Type} [Scalar α] : LawfulSurface (Raster α) where
  frame_withFrame _ _ := rfl
  withFrame_withFrame _ _ _ := rfl
  frame_clear _ := rfl
  clear_clear _ := rfl
  clear_withFrame _ _ := rfl
  frame_paint raster shape width color := by
    show (raster.paint shape width color).2.frame = raster.frame
    unfold Raster.paint
    split <;> rfl
  clear_paint raster shape width color := by
    show (raster.paint shape width color).2.fill (raster.paint shape width color).2.background =
      raster.fill raster.background
    unfold Raster.paint
    split
    · rfl
    · unfold Raster.fill
      rw [Canvas.fill_paint]

namespace Surface

variable {α σ : Type} [Surface α σ]

/-- The transforms that a surface remembers. -/
def saved (s : σ) : List (Affine α) := (frame s).saved

/-- The surface in a frame, without what was drawn. -/
def blank (s : σ) (frame : Frame α) : σ := withFrame (clear s) frame

end Surface

/-! ## What no drawing changes -/

namespace Drawing

variable {α σ τ ε β : Type} [Surface α σ] {f : σ → τ}

/-- Something of a surface that transforms, shapes and frames of their own keep. -/
structure Unmoved (f : σ → τ) : Prop where
  setTransform : ∀ m : Affine α, Keeps f (setTransform m : Drawing σ Unit)
  paint : ∀ (shape : Shape α) (width : Number α) (color : Rgba),
    Keeps f (Surface.paint shape width color : Drawing σ Unit)
  framed : ∀ {ε β : Type} {x : ExceptT ε (StateM σ) β}, Keeps f x → Keeps f (Drawing.framed x)

/-- Something of a surface that transforms, shapes in colours of a kind, and frames of their own
keep. -/
structure UnmovedIn (kind : Rgba → Prop) (f : σ → τ) : Prop where
  setTransform : ∀ m : Affine α, Keeps f (setTransform m : Drawing σ Unit)
  paint : ∀ (shape : Shape α) (width : Number α) (color : Rgba), kind color →
    Keeps f (Surface.paint shape width color : Drawing σ Unit)
  framed : ∀ {ε β : Type} {x : ExceptT ε (StateM σ) β}, Keeps f x → Keeps f (Drawing.framed x)

theorem Unmoved.inAny (h : Unmoved f) : UnmovedIn (fun _ => True) f :=
  ⟨h.setTransform, fun shape width color _ => h.paint shape width color, h.framed⟩

/-- Where a framed drawing ends: the frame is restored from where the drawing alone ends. -/
theorem run_framed (x : ExceptT ε (StateM σ) β) (s : σ) :
    (framed x) s =
      let inside := x (Surface.withFrame s (Surface.frame s).save)
      (inside.1, Surface.withFrame inside.2 (Surface.frame inside.2).restore) := rfl

section

variable [FramedSurface σ]

/-- **What is framed leaves the frame as it was**, also where it fails. -/
theorem frame_framed {x : ExceptT ε (StateM σ) β} (hx : Keeps Surface.saved x) :
    Keeps Surface.frame (framed x) := by
  intro s
  rw [run_framed]
  dsimp only
  rw [FramedSurface.frame_withFrame]
  have hsaved := hx (Surface.withFrame s (Surface.frame s).save)
  unfold Surface.saved at hsaved
  rw [FramedSurface.frame_withFrame] at hsaved
  exact Frame.restore_eq hsaved

/-- **The remembered transforms are unmoved.** -/
theorem unmoved_saved : Unmoved (Surface.saved : σ → List (Affine α)) where
  setTransform m s := by
    show (Surface.frame (Surface.withFrame s _)).saved = (Surface.frame s).saved
    rw [FramedSurface.frame_withFrame]
  paint shape width color s :=
    congrArg Frame.saved (FramedSurface.frame_paint s shape width color)
  framed hx s := congrArg Frame.saved (frame_framed hx s)

end

section

variable [LawfulSurface σ]

/-- A change of the frame is no drawing. -/
theorem blank_withFrame (s : σ) (frame : Frame α) :
    Surface.blank (Surface.withFrame s frame) = Surface.blank s := by
  funext frame'
  unfold Surface.blank
  rw [LawfulSurface.clear_withFrame, LawfulSurface.withFrame_withFrame]

/-- Clearing again changes nothing. -/
theorem blank_blank (s : σ) (frame : Frame α) :
    Surface.blank (Surface.blank s frame) = Surface.blank s := by
  have hcleared : Surface.blank (Surface.clear s) = Surface.blank s := by
    unfold Surface.blank
    rw [LawfulSurface.clear_clear s]
  exact (blank_withFrame (Surface.clear s) frame).trans hcleared

/-- **What is left after clearing is unmoved.** -/
theorem unmoved_blank : Unmoved (Surface.blank : σ → Frame α → σ) where
  setTransform m s := blank_withFrame s _
  paint shape width color s :=
    congrArg Surface.withFrame (LawfulSurface.clear_paint s shape width color)
  framed hx s := by
    rw [run_framed, blank_withFrame, hx, blank_withFrame]

end

namespace UnmovedIn

variable {kind : Rgba → Prop}

theorem enter [Scalar α] (h : UnmovedIn kind f) (m : Affine α) :
    Keeps f (enter m : Drawing σ Unit) :=
  Keeps.bind (fun _ => rfl) fun _ => h.setTransform _

/-- A marker is a row of shapes in the colour of its style. -/
theorem marker [Scalar α] (h : UnmovedIn kind f) {style : String}
    (hstyle : ∀ color, Rgba.ofStyle style = .ok color → kind color) :
    Keeps f (FrameMarker.draw style : Drawing σ Unit) := by
  unfold FrameMarker.draw
  cases hcolor : Rgba.ofStyle style with
  | ok color => exact (Keeps.forM fun _ _ => h.paint _ _ _ (hstyle color hcolor) :)
  | error error => exact Keeps.computed (.error (DrawFault.color error))

end UnmovedIn

/-- A marker keeps what no drawing changes. -/
theorem Unmoved.marker [Scalar α] (h : Unmoved f) (style : String) :
    Keeps f (FrameMarker.draw style : Drawing σ Unit) :=
  h.inAny.marker fun _ _ => trivial

end Drawing

end CanvasScript
