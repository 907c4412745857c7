import Mathlib.Algebra.Order.Ring.Defs
import Mathlib.Algebra.Order.Ring.Rat
import Mathlib.Tactic.NormNum.Ineq
import TaiwanSpots.Runs

/-!
# The panel of the map

The panel with the details of a spot hangs on one constraint, whose constant a pan
gesture moves. The recogniser counts how far the finger has gone and is told to count
from zero again whenever the panel has moved. A move past the limit moves nothing and
is not forgotten, so that constant and count together always give the place to which
the finger has led. The panel is sent to a place of rest when the finger is lifted,
and only then.
-/
namespace TaiwanSpots
open Runs

structure CGPoint (K : Type*) where
  x : K
  y : K
  deriving DecidableEq, Repr

namespace CGPoint
variable {K : Type*}

instance [Zero K] : Zero (CGPoint K) := ⟨⟨0, 0⟩⟩

instance [Add K] : Add (CGPoint K) := ⟨fun p q => ⟨p.x + q.x, p.y + q.y⟩⟩

@[simp] theorem zero_y [Zero K] : (0 : CGPoint K).y = 0 := rfl

@[simp] theorem add_y [Add K] (p q : CGPoint K) : (p + q).y = p.y + q.y := rfl

end CGPoint

/-- The states of a recogniser: it waits, or has sent its action for one of the others. -/
inductive GestureState where
  | possible
  | began
  | changed
  | ended
  | cancelled
  deriving DecidableEq, Repr

def GestureState.inProgress : GestureState → Bool
  | began | changed => true
  | possible | ended | cancelled => false

/-- `translation` is how far the finger has gone since the gesture began or the
translation was last set to zero. -/
structure UIPanGestureRecognizer (K : Type*) where
  state : GestureState
  translation : CGPoint K
  deriving DecidableEq, Repr

/-- The finger has moved by `displacement`, and the recogniser goes over to `state`. -/
structure PanEvent (K : Type*) where
  state : GestureState
  displacement : CGPoint K
  deriving DecidableEq, Repr

/-- `none` where a gesture cannot go on like this. -/
def UIPanGestureRecognizer.recognize {K : Type*} [Add K] (recognizer : UIPanGestureRecognizer K)
    (e : PanEvent K) : Option (UIPanGestureRecognizer K) :=
  match e.state with
  | .possible => none
  | .began =>
    if recognizer.state.inProgress then none else some ⟨.began, e.displacement⟩
  | .changed | .ended | .cancelled =>
    if recognizer.state.inProgress then
      some ⟨e.state, recognizer.translation + e.displacement⟩
    else none

theorem UIPanGestureRecognizer.recognize_cases {K : Type*} [Add K]
    {recognizer recognizer' : UIPanGestureRecognizer K} {e : PanEvent K}
    (h : recognizer.recognize e = some recognizer') :
    (e.state = .began ∧ recognizer.state.inProgress = false ∧
      recognizer' = ⟨.began, e.displacement⟩) ∨
    (e.state ≠ .possible ∧ e.state ≠ .began ∧ recognizer.state.inProgress = true ∧
      recognizer' = ⟨e.state, recognizer.translation + e.displacement⟩) := by
  obtain ⟨state, d⟩ := e
  cases state with
  | possible => cases h
  | began =>
    simp only [recognize] at h
    split_ifs at h with hstate
    exact .inl ⟨rfl, Bool.eq_false_iff.mpr hstate, (Option.some.inj h).symm⟩
  | changed | ended | cancelled =>
    simp only [recognize] at h
    split_ifs at h with hstate
    exact .inr ⟨by simp, by simp, hstate, (Option.some.inj h).symm⟩

/-- `spotDetailTopAnchor` is the constant of the constraint. -/
structure SpotsMapViewController (K : Type*) where
  spotDetailTopAnchor : K
  recognizer : UIPanGestureRecognizer K
  deriving DecidableEq, Repr

namespace SpotsMapViewController
variable {K : Type*} [Ring K] [LinearOrder K]

def setupSpotDetailsView : SpotsMapViewController K := ⟨-130, ⟨.possible, 0⟩⟩

def spotDetailsViewPanGesture (page : SpotsMapViewController K) : SpotsMapViewController K :=
  let translation := page.recognizer.translation
  let contant := page.spotDetailTopAnchor
  match page.recognizer.state with
  | .changed =>
    let constrainAfterTranslation := page.spotDetailTopAnchor + translation.y
    if constrainAfterTranslation > -250 then
      { page with
        spotDetailTopAnchor := constrainAfterTranslation
        recognizer := { page.recognizer with translation := 0 } }
    else page
  | .ended =>
    if contant > -155 then { page with spotDetailTopAnchor := -130 }
    else { page with spotDetailTopAnchor := -250 }
  | _ => page

def step (page : SpotsMapViewController K) (e : PanEvent K) : Option (SpotsMapViewController K) :=
  (page.recognizer.recognize e).map fun recognizer =>
    { page with recognizer }.spotDetailsViewPanGesture

/-- Everything that one event can do. -/
inductive Step (page : SpotsMapViewController K) :
    PanEvent K → SpotsMapViewController K → Prop where
  | began {d : CGPoint K} (hstate : page.recognizer.state.inProgress = false) :
      Step page ⟨.began, d⟩ ⟨page.spotDetailTopAnchor, ⟨.began, d⟩⟩
  | moved {d : CGPoint K} (hstate : page.recognizer.state.inProgress = true)
      (hlimit : -250 < page.spotDetailTopAnchor + (page.recognizer.translation + d).y) :
      Step page ⟨.changed, d⟩
        ⟨page.spotDetailTopAnchor + (page.recognizer.translation + d).y, ⟨.changed, 0⟩⟩
  | heldBack {d : CGPoint K} (hstate : page.recognizer.state.inProgress = true)
      (hlimit : ¬ -250 < page.spotDetailTopAnchor + (page.recognizer.translation + d).y) :
      Step page ⟨.changed, d⟩
        ⟨page.spotDetailTopAnchor, ⟨.changed, page.recognizer.translation + d⟩⟩
  | ended {d : CGPoint K} (hstate : page.recognizer.state.inProgress = true) :
      Step page ⟨.ended, d⟩
        ⟨if -155 < page.spotDetailTopAnchor then -130 else -250,
          ⟨.ended, page.recognizer.translation + d⟩⟩
  | cancelled {d : CGPoint K} (hstate : page.recognizer.state.inProgress = true) :
      Step page ⟨.cancelled, d⟩
        ⟨page.spotDetailTopAnchor, ⟨.cancelled, page.recognizer.translation + d⟩⟩

theorem spotDetailsViewPanGesture_ended (place : K) (d : CGPoint K) :
    spotDetailsViewPanGesture ⟨place, ⟨.ended, d⟩⟩ =
      ⟨if -155 < place then -130 else -250, ⟨.ended, d⟩⟩ := by
  simp only [spotDetailsViewPanGesture, gt_iff_lt]
  split_ifs <;> rfl

theorem step_cases {page page' : SpotsMapViewController K} {e : PanEvent K}
    (h : step page e = some page') : Step page e page' := by
  obtain ⟨recognizer, hrecognizer, rfl⟩ := Option.map_eq_some_iff.mp h
  obtain ⟨state, d⟩ := e
  rcases UIPanGestureRecognizer.recognize_cases hrecognizer with
    ⟨rfl, hstate, rfl⟩ | ⟨hpossible, hbegan, hstate, rfl⟩
  · exact .began hstate
  · cases state with
    | possible => exact absurd rfl hpossible
    | began => exact absurd rfl hbegan
    | changed =>
      simp only [spotDetailsViewPanGesture, gt_iff_lt]
      split_ifs with hlimit
      · exact .moved hstate hlimit
      · exact .heldBack hstate hlimit
    | ended =>
      rw [spotDetailsViewPanGesture_ended]
      exact .ended hstate
    | cancelled => exact .cancelled hstate

/-- The two places to which the end of a gesture sends the panel. -/
def AtRest (place : K) : Prop := place = -130 ∨ place = -250

theorem atRest_ended (place : K) : AtRest (if -155 < place then -130 else -250 : K) := by
  unfold AtRest
  split_ifs
  · exact .inl rfl
  · exact .inr rfl

theorem AtRest.limit [IsStrictOrderedRing K] {place : K} (h : AtRest place) : -250 ≤ place := by
  rcases h with rfl | rfl
  · norm_num
  · exact le_rfl

/-- What can be seen of a gesture: where the panel stood when it began, how far the
finger has gone since, and the last place below the limit to which a move has led. -/
structure Drag (K : Type*) where
  start : K
  total : K
  reached : Option K
  deriving DecidableEq, Repr

def Drag.note (page : SpotsMapViewController K) (e : PanEvent K) (drag : Drag K) : Drag K :=
  match e.state with
  | .began => ⟨page.spotDetailTopAnchor, e.displacement.y, none⟩
  | .changed =>
    let total := drag.total + e.displacement.y
    { drag with
      total
      reached := if -250 < drag.start + total then some (drag.start + total) else drag.reached }
  | _ => { drag with total := drag.total + e.displacement.y }

/-- A change leaves the panel at the place to which the finger has led, if that is
below the limit, and where it was otherwise; the end of a gesture leaves it at rest. -/
def Follows (s : SpotsMapViewController K × Drag K) (e : PanEvent K) : Prop :=
  ∀ t, watched step Drag.note s e = some t →
    (e.state = .changed → t.1.spotDetailTopAnchor =
      if -250 < t.2.start + t.2.total then t.2.start + t.2.total else s.1.spotDetailTopAnchor) ∧
    (e.state = .ended → AtRest t.1.spotDetailTopAnchor)

/-- During a gesture, constant and count together give the place to which the finger
has led, and the constant is the last of these places below the limit. -/
structure Tracks (s : SpotsMapViewController K × Drag K) : Prop where
  position : s.1.spotDetailTopAnchor + s.1.recognizer.translation.y = s.2.start + s.2.total
  constant : s.1.spotDetailTopAnchor = s.2.reached.getD s.2.start
  limit : ∀ place ∈ s.2.reached, -250 < place

def Inv (s : SpotsMapViewController K × Drag K) : Prop :=
  s.1.recognizer.state.inProgress = true → Tracks s

/-- A change adds to the count what it adds to the way of the finger. -/
theorem Tracks.add_displacement {s : SpotsMapViewController K × Drag K} (hs : Tracks s)
    (d : CGPoint K) : s.1.spotDetailTopAnchor + (s.1.recognizer.translation + d).y =
      s.2.start + (s.2.total + d.y) := by
  rw [CGPoint.add_y, ← add_assoc, hs.position, add_assoc]

theorem step_inv {s t : SpotsMapViewController K × Drag K} {e : PanEvent K} (hs : Inv s)
    (h : watched step Drag.note s e = some t) : Inv t := by
  obtain ⟨hstep, hnote⟩ := watched_eq_some.mp h
  obtain ⟨page', drag'⟩ := t
  obtain rfl : drag' = Drag.note s.1 e s.2 := hnote
  intro hprogress
  cases step_cases hstep with
  | began hstate => exact ⟨rfl, rfl, by simp [Drag.note]⟩
  | @moved d hstate hlimit =>
    have hplace := (hs hstate).add_displacement d
    rw [hplace] at hlimit ⊢
    have hreached : (Drag.note s.1 ⟨.changed, d⟩ s.2).reached =
        some (s.2.start + (s.2.total + d.y)) := if_pos hlimit
    refine ⟨?_, ?_, ?_⟩
    · exact add_zero _
    · rw [hreached, Option.getD_some]
    · simpa [hreached] using hlimit
  | @heldBack d hstate hlimit =>
    have hplace := (hs hstate).add_displacement d
    rw [hplace] at hlimit
    have hreached : (Drag.note s.1 ⟨.changed, d⟩ s.2).reached = s.2.reached := if_neg hlimit
    refine ⟨hplace, ?_, ?_⟩
    · rw [hreached]
      exact (hs hstate).constant
    · rw [hreached]
      exact (hs hstate).limit
  | ended hstate => cases hprogress
  | cancelled hstate => cases hprogress

/-- No step leads past the limit. -/
theorem step_limit [IsStrictOrderedRing K] {page page' : SpotsMapViewController K} {e : PanEvent K}
    (hlimit : -250 ≤ page.spotDetailTopAnchor) (h : step page e = some page') :
    -250 ≤ page'.spotDetailTopAnchor := by
  cases step_cases h with
  | began hstate => exact hlimit
  | moved hstate hmoved => exact hmoved.le
  | heldBack hstate hheld => exact hlimit
  | ended hstate => exact (atRest_ended page.spotDetailTopAnchor).limit
  | cancelled hstate => exact hlimit

theorem inv_follows {s : SpotsMapViewController K × Drag K} {e : PanEvent K} (hs : Inv s) :
    Follows s e := by
  rintro ⟨page', drag'⟩ h
  obtain ⟨hstep, hnote⟩ := watched_eq_some.mp h
  obtain rfl : drag' = Drag.note s.1 e s.2 := hnote
  cases step_cases hstep with
  | began hstate => exact ⟨fun he => (by cases he), fun he => (by cases he)⟩
  | @moved d hstate hlimit =>
    have hplace := (hs hstate).add_displacement d
    rw [hplace] at hlimit ⊢
    exact ⟨fun _ => (if_pos hlimit).symm, fun he => (by cases he)⟩
  | @heldBack d hstate hlimit =>
    rw [(hs hstate).add_displacement d] at hlimit
    exact ⟨fun _ => (if_neg hlimit).symm, fun he => (by cases he)⟩
  | ended hstate => exact ⟨fun he => (by cases he), fun _ => atRest_ended _⟩
  | cancelled hstate => exact ⟨fun he => (by cases he), fun he => (by cases he)⟩

/-- In every run, whatever way the gestures go and however they finish, the panel
never rises past its limit and follows the finger without drift. -/
theorem panel_follows_finger [IsStrictOrderedRing K] (drag : Drag K) (es : List (PanEvent K)) :
    Always step (fun page => -250 ≤ page.spotDetailTopAnchor) setupSpotDetailsView es ∧
      Along (watched step Drag.note) Follows (setupSpotDetailsView, drag) es := by
  constructor
  · refine always_of_invariant
      (I := fun page : SpotsMapViewController K => -250 ≤ page.spotDetailTopAnchor)
      (fun _ hlimit => hlimit) (fun page e page' hlimit _ h => step_limit hlimit h) ?_ along_true
    have hrest : AtRest (-130 : K) := .inl rfl
    exact hrest.limit
  · exact along_of_invariant (I := Inv) (fun s e hs _ => inv_follows hs)
      (fun s e t hs _ h => step_inv hs h) (fun h => by cases h) along_true

/-- A drag past the limit and halfway back. -/
def sampleOvershoot : List (PanEvent ℚ) :=
  [⟨.began, ⟨0, 0⟩⟩, ⟨.changed, ⟨3, -100⟩⟩, ⟨.changed, ⟨0, -50⟩⟩, ⟨.changed, ⟨1/2, 40⟩⟩,
    ⟨.ended, ⟨0, 0⟩⟩]

theorem panel_follows_finger_sample :
    run step setupSpotDetailsView sampleOvershoot = some ⟨-250, ⟨.ended, ⟨0, 0⟩⟩⟩ ∧
      Always step (fun page => -250 ≤ page.spotDetailTopAnchor) setupSpotDetailsView
        sampleOvershoot ∧
      Along (watched step Drag.note) Follows (setupSpotDetailsView, ⟨0, 0, none⟩)
        sampleOvershoot :=
  ⟨by decide +kernel, panel_follows_finger ⟨0, 0, none⟩ sampleOvershoot⟩

/-- Without a gesture the panel is at rest. -/
def Rested (page : SpotsMapViewController K) : Prop :=
  page.recognizer.state.inProgress = false → AtRest page.spotDetailTopAnchor

/-- If the event cancels the gesture, the last place below the limit to which a move
has led, if there is one, is the lower place of rest. -/
def CancelledAtRest (s : SpotsMapViewController K × Drag K) (e : PanEvent K) : Prop :=
  e.state = .cancelled → ∀ place ∈ s.2.reached, place = -130

/-- What is known while the panel has been at rest between all gestures. -/
structure Settled (s : SpotsMapViewController K × Drag K) : Prop where
  inv : Inv s
  start : s.1.recognizer.state.inProgress = true → AtRest s.2.start
  rested : Rested s.1

/-- Where a gesture that is cancelled leaves the panel. -/
theorem Tracks.atRest_iff {s : SpotsMapViewController K × Drag K} (hs : Tracks s)
    (hstart : AtRest s.2.start) :
    AtRest s.1.spotDetailTopAnchor ↔ ∀ place ∈ s.2.reached, place = -130 := by
  rw [hs.constant]
  cases hreached : s.2.reached with
  | none => simp [hstart]
  | some place =>
    have hlimit : -250 < place := hs.limit place hreached
    simp [AtRest, hlimit.ne']

theorem cancelledAtRest_of_rested {s t : SpotsMapViewController K × Drag K} {e : PanEvent K}
    (hs : Settled s) (h : watched step Drag.note s e = some t) (ht : Rested t.1) :
    CancelledAtRest s e := by
  obtain ⟨hstep, -⟩ := watched_eq_some.mp h
  obtain ⟨page', drag'⟩ := t
  intro he
  cases step_cases hstep with
  | cancelled hstate => exact ((hs.inv hstate).atRest_iff (hs.start hstate)).mp (ht rfl)
  | began | moved | heldBack | ended => cases he

theorem step_settled {s t : SpotsMapViewController K × Drag K} {e : PanEvent K}
    (hs : Settled s) (h : watched step Drag.note s e = some t) (he : CancelledAtRest s e) :
    Settled t := by
  have hinv := step_inv hs.inv h
  obtain ⟨hstep, hnote⟩ := watched_eq_some.mp h
  obtain ⟨page', drag'⟩ := t
  obtain rfl : drag' = Drag.note s.1 e s.2 := hnote
  cases step_cases hstep with
  | began hstate => exact ⟨hinv, fun _ => hs.rested hstate, fun hidle => (by cases hidle)⟩
  | moved hstate => exact ⟨hinv, fun _ => hs.start hstate, fun hidle => (by cases hidle)⟩
  | heldBack hstate => exact ⟨hinv, fun _ => hs.start hstate, fun hidle => (by cases hidle)⟩
  | ended hstate => exact ⟨hinv, fun hprogress => (by cases hprogress), fun _ => atRest_ended _⟩
  | cancelled hstate =>
    refine ⟨hinv, fun hprogress => (by cases hprogress), fun _ => ?_⟩
    exact ((hs.inv hstate).atRest_iff (hs.start hstate)).mpr (he rfl)

/-- The panel is at rest between all gestures of a run exactly when no gesture is
cancelled whose last move below the limit has led anywhere but to the lower place of rest. -/
theorem panel_rested_iff (drag : Drag K) {page : SpotsMapViewController K}
    {es : List (PanEvent K)} (hr : run step setupSpotDetailsView es = some page) :
    Always step Rested setupSpotDetailsView es ↔
      Along (watched step Drag.note) CancelledAtRest (setupSpotDetailsView, drag) es := by
  have hwatched : run (watched step Drag.note) (setupSpotDetailsView, drag) es =
      some (page, noted step Drag.note setupSpotDetailsView drag es) := by
    rw [run_watched, hr, Option.map_some]
  have hobserved : Always (watched step Drag.note) (fun s => Rested s.1)
      (setupSpotDetailsView, drag) es ↔ Always step Rested setupSpotDetailsView es :=
    always_watched
  rw [← hobserved]
  exact always_iff_along_of_steps (E := fun _ => True) (fun s hs => Settled.rested hs)
    (fun s e t hs _ h ht => cancelledAtRest_of_rested hs h ht)
    (fun s e t hs _ h he => step_settled hs h he) (fun _ _ => trivial)
    ⟨fun h => (by cases h), fun h => (by cases h), fun _ => .inl rfl⟩ hwatched

/-- The panel is dragged up, and back to where it was before the touch is interrupted. -/
def sampleReturn : List (PanEvent ℚ) :=
  [⟨.began, ⟨0, 0⟩⟩, ⟨.changed, ⟨0, -100⟩⟩, ⟨.ended, ⟨0, 0⟩⟩, ⟨.began, ⟨0, 0⟩⟩,
    ⟨.changed, ⟨0, 120⟩⟩, ⟨.cancelled, ⟨0, 0⟩⟩]

theorem panel_rested_iff_sample :
    run step setupSpotDetailsView sampleReturn = some ⟨-130, ⟨.cancelled, ⟨0, 0⟩⟩⟩ ∧
      Always step Rested setupSpotDetailsView sampleReturn := by
  have hrun : run step setupSpotDetailsView sampleReturn = some ⟨-130, ⟨.cancelled, ⟨0, 0⟩⟩⟩ := by
    decide +kernel
  refine ⟨hrun, (@panel_rested_iff ℚ _ _ ⟨0, 0, none⟩ _ sampleReturn hrun).mpr ?_⟩
  have hsplit : sampleReturn = sampleReturn.dropLast ++ [⟨.cancelled, ⟨0, 0⟩⟩] := rfl
  rw [hsplit, along_concat]
  refine ⟨along_of_free (by simp [sampleReturn, CancelledAtRest]), fun m hm _ place hplace => ?_⟩
  have hreached : (run (watched step Drag.note) (setupSpotDetailsView, ⟨0, 0, none⟩)
      sampleReturn.dropLast).map (fun m => m.2.reached) = some (some (-130)) := by
    decide +kernel
  rw [hm] at hreached
  cases (Option.some.inj hreached).symm.trans hplace
  rfl

/-- The panel is dragged below the screen, and the touch is interrupted. -/
def sampleInterrupted : List (PanEvent ℚ) :=
  [⟨.began, ⟨0, 0⟩⟩, ⟨.changed, ⟨0, 300⟩⟩, ⟨.cancelled, ⟨0, 0⟩⟩]

theorem interrupted_gesture_strands_panel :
    run step setupSpotDetailsView sampleInterrupted = some ⟨170, ⟨.cancelled, ⟨0, 0⟩⟩⟩ ∧
      ¬ Always step Rested setupSpotDetailsView sampleInterrupted := by
  have hrun : run step setupSpotDetailsView sampleInterrupted =
      some ⟨170, ⟨.cancelled, ⟨0, 0⟩⟩⟩ := by decide +kernel
  refine ⟨hrun, fun h => ?_⟩
  have hrest : AtRest (170 : ℚ) := h.last hrun rfl
  rcases hrest with hplace | hplace <;> exact absurd hplace (by decide)

end SpotsMapViewController

end TaiwanSpots
