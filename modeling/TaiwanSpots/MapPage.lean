import TaiwanSpots.ImportedFeeds
import TaiwanSpots.Runs

/-!
# The map of a city page

`SpotsViewController` shows one of two children, the list of its city or a map, below
a segmented control. The view of the map is loaded when it is shown for the first time
and lists all Spots documents once. The listing may be answered with anything and at any
time, before or after other events of the page.
-/
namespace TaiwanSpots.MapPage
open Runs

structure CLLocationCoordinate2D where
  latitude : Double
  longitude : Double
  deriving DecidableEq, Repr

structure SpotAnnotation where
  spot : Spot
  title : String
  coordinate : CLLocationCoordinate2D
  deriving DecidableEq

/-- `SpotAnnotation(spot:)` -/
def SpotAnnotation.init (spot : Spot) : SpotAnnotation := ⟨spot, spot.name, ⟨spot.py, spot.px⟩⟩

/-- `spot` is nil until a point is selected. `listing` tells whether the listing is
still to be answered, `region` is the centre that the map was last moved to. -/
structure SpotsMapViewController where
  spots : List Spot
  annotations : List SpotAnnotation
  spot : Option Spot
  nameLabel : String
  addressLabel : String
  phoneLabel : String
  openLabel : String
  region : Option CLLocationCoordinate2D
  updatingLocation : Bool
  myLocationButtonIsSelected : Bool
  listing : Bool

namespace SpotsMapViewController

/-- A map whose view has just been loaded. -/
def viewDidLoad : SpotsMapViewController where
  spots := []
  annotations := []
  spot := none
  nameLabel := ""
  addressLabel := ""
  phoneLabel := ""
  openLabel := ""
  region := none
  updatingLocation := true
  myLocationButtonIsSelected := false
  listing := true

def addAnnotation (page : SpotsMapViewController) (spots : List Spot) : SpotsMapViewController :=
  { page with annotations := page.annotations ++ spots.map SpotAnnotation.init }

/-- The callback of the listing, `none` for an error. Decoding a document may trap. -/
def didGetDocuments (page : SpotsMapViewController)
    (snapshots : Option (List (String × Dictionary))) : Option SpotsMapViewController :=
  match snapshots with
  | none => some { page with listing := false }
  | some snapshots =>
    (snapshots.mapM fun snapshot => Spot.initFirestoreDictionary snapshot.2).map fun loaded =>
      let spots := page.spots ++ loaded
      SpotsMapViewController.addAnnotation { page with spots, listing := false } spots

/-- `mapView(_:didSelect:)`, `none` for a point of another class. -/
def didSelect (page : SpotsMapViewController) (point : Option SpotAnnotation) :
    SpotsMapViewController :=
  match point with
  | none => page
  | some point =>
    let spot := point.spot
    { page with
      region := some point.coordinate
      spot := some spot
      nameLabel := spot.name
      addressLabel := "地址: " ++ spot.address
      phoneLabel := "電話: " ++ spot.phone
      openLabel := "開放時間: " ++ spot.opentime }

def dismissButtonDidTap (page : SpotsMapViewController) : SpotsMapViewController :=
  { page with updatingLocation := true }

/-- `locationManager(_:didUpdateLocations:)` -/
def didUpdateLocations (page : SpotsMapViewController) (last : Option CLLocationCoordinate2D) :
    SpotsMapViewController :=
  match last with
  | none => { page with updatingLocation := false }
  | some coordinate =>
    { page with
      updatingLocation := false
      region := some coordinate
      myLocationButtonIsSelected := true }

def regionWillChange (page : SpotsMapViewController) : SpotsMapViewController :=
  { page with myLocationButtonIsSelected := false }

end SpotsMapViewController

inductive Child where
  | collection
  | map
  deriving DecidableEq, Repr

inductive Subview where
  | child (child : Child)
  | segmentControl
  deriving DecidableEq, Repr

/-- The children and the control among the subviews of a view, from the bottom to the top. -/
abbrev Subviews := List Subview

def Subviews.remove (subviews : Subviews) (view : Subview) : Subviews := subviews.erase view

def Subviews.add (subviews : Subviews) (view : Subview) : Subviews := subviews.erase view ++ [view]

def Subviews.bringToFront (subviews : Subviews) (view : Subview) : Subviews :=
  if view ∈ subviews then subviews.erase view ++ [view] else subviews

/-- `map` is `none` until the view of the map is loaded. -/
structure SpotsViewController where
  subviews : Subviews
  selectedSegmentIndex : ℕ
  currentViewController : Child
  map : Option SpotsMapViewController

namespace SpotsViewController

def setupSegmentControl (subviews : Subviews) : Subviews := subviews.add .segmentControl

def viewDidLoad : SpotsViewController where
  subviews := ((setupSegmentControl []).add (.child .collection)).bringToFront .segmentControl
  selectedSegmentIndex := 0
  currentViewController := .collection
  map := none

/-- The control shows the segment `index`. Asking the map for its view loads it. -/
def segmentControlDidChanged (page : SpotsViewController) (index : ℕ) : SpotsViewController :=
  let child : Child := if index = 0 then .collection else .map
  { subviews := ((page.subviews.remove (.child page.currentViewController)).add
      (.child child)).bringToFront .segmentControl
    selectedSegmentIndex := index
    currentViewController := child
    map := match child with
      | .collection => page.map
      | .map => some (page.map.getD .viewDidLoad) }

end SpotsViewController

/-- The control has two segments. Annotations and the button can be touched while the map
is shown, the other callbacks arrive at any time. The listing is answered with documents
or, `none`, with an error, and `none` selects the location of the user. -/
inductive Event where
  | segmentControlDidChanged (index : ℕ)
  | didGetDocuments (snapshots : Option (List (String × Dictionary)))
  | didSelect (point : Option ℕ)
  | dismissButtonDidTap
  | didUpdateLocations (last : Option CLLocationCoordinate2D)
  | regionWillChange

/-- One event of the map. -/
def stepMap (shown : Bool) (map : SpotsMapViewController) : Event → Option SpotsMapViewController
  | .segmentControlDidChanged _ => none
  | .didGetDocuments snapshots => if map.listing then map.didGetDocuments snapshots else none
  | .didSelect none => if shown then some (map.didSelect none) else none
  | .didSelect (some i) =>
    if shown then map.annotations[i]?.map fun point => map.didSelect (some point)
    else none
  | .dismissButtonDidTap => if shown then some map.dismissButtonDidTap else none
  | .didUpdateLocations last =>
    if map.updatingLocation then some (map.didUpdateLocations last) else none
  | .regionWillChange => some map.regionWillChange

/-- One event of the page. -/
def step (s : SpotsViewController) (e : Event) : Option SpotsViewController :=
  match e with
  | .segmentControlDidChanged index =>
    if index < 2 then some (s.segmentControlDidChanged index) else none
  | e =>
    s.map.bind fun map =>
      (stepMap (s.currentViewController = .map) map e).map fun map => { s with map := some map }

/-! What the events so far have brought. -/

/-- The documents of the answers that were given. -/
def answered : Event → Option (List (String × Dictionary))
  | .didGetDocuments snapshots => some (snapshots.getD [])
  | _ => none

/-- The point that was selected, if it is one of a spot. -/
def selected : Event → Option ℕ
  | .didSelect point => point
  | _ => none

/-- The spots that the listing has brought. -/
def loaded (es : List Event) : List Spot :=
  (es.filterMap answered).flatten.filterMap fun snapshot =>
    Spot.initFirestoreDictionary snapshot.2

/-- The spot of the point that was selected last. -/
def lastSelected (es : List Event) : Option Spot :=
  (es.filterMap selected).getLast?.bind fun i => (loaded es)[i]?

/-- The labels describe the spot, and are empty without one. -/
def Labelled (page : SpotsMapViewController) : Prop :=
  match page.spot with
  | none => page.nameLabel = "" ∧ page.addressLabel = "" ∧ page.phoneLabel = "" ∧
      page.openLabel = ""
  | some spot => page.nameLabel = spot.name ∧ page.addressLabel = "地址: " ++ spot.address ∧
      page.phoneLabel = "電話: " ++ spot.phone ∧ page.openLabel = "開放時間: " ++ spot.opentime

/-- What a map that has been loaded shows after these events. -/
structure Shows (es : List Event) (page : SpotsMapViewController) : Prop where
  answers : (es.filterMap answered).length = if page.listing then 0 else 1
  spots : page.spots = loaded es
  annotations : page.annotations = (loaded es).map SpotAnnotation.init
  spot : page.spot = lastSelected es
  unselected : loaded es = [] → es.filterMap selected = []
  labels : Labelled page
  counted : page.annotations.length = (es.filterMap answered).flatten.length

/-- What holds of the page after these events. -/
structure Inv (es : List Event) (s : SpotsViewController) : Prop where
  subviews : s.subviews = [.child s.currentViewController, .segmentControl]
  current : s.currentViewController = if s.selectedSegmentIndex = 0 then .collection else .map
  loaded : s.currentViewController = .map → s.map.isSome = true
  unloaded : s.map = none → ∀ x ∈ es, answered x = none ∧ selected x = none
  map : ∀ page, s.map = some page → Shows es page

theorem loaded_concat (es : List Event) (x : Event) :
    loaded (es ++ [x]) = loaded es ++ ((answered x).getD []).filterMap fun snapshot =>
      Spot.initFirestoreDictionary snapshot.2 := by
  cases hx : answered x <;> simp [loaded, hx]

theorem loaded_concat_of_none {es : List Event} {x : Event}
    (h : answered x = none) : loaded (es ++ [x]) = loaded es := by
  rw [loaded_concat, h, Option.getD_none, List.filterMap_nil, List.append_nil]

theorem lastSelected_concat_of_none {es : List Event} {x : Event}
    (ha : answered x = none) (hs : selected x = none) :
    lastSelected (es ++ [x]) = lastSelected es := by
  rw [lastSelected, loaded_concat_of_none ha, List.filterMap_append]
  simp [hs, lastSelected]

theorem shows_start {es : List Event}
    (h : ∀ x ∈ es, answered x = none ∧ selected x = none) : Shows es .viewDidLoad := by
  have ha : es.filterMap answered = [] := List.filterMap_eq_nil_iff.mpr fun x hx => (h x hx).1
  have hs : es.filterMap selected = [] := List.filterMap_eq_nil_iff.mpr fun x hx => (h x hx).2
  constructor
  · rw [ha]
    rfl
  · simp [loaded, ha, SpotsMapViewController.viewDidLoad]
  · simp [loaded, ha, SpotsMapViewController.viewDidLoad]
  · simp [lastSelected, hs, SpotsMapViewController.viewDidLoad]
  · exact fun _ => hs
  · exact ⟨rfl, rfl, rfl, rfl⟩
  · simp [ha, SpotsMapViewController.viewDidLoad]

/-- Events that neither answer the listing nor select a point leave what is shown. -/
theorem Shows.other {es : List Event} {x : Event}
    {page page' : SpotsMapViewController} (h : Shows es page) (ha : answered x = none)
    (hs : selected x = none) (hlisting : page'.listing = page.listing)
    (hspots : page'.spots = page.spots) (hannotations : page'.annotations = page.annotations)
    (hspot : page'.spot = page.spot) (hlabels : Labelled page → Labelled page') :
    Shows (es ++ [x]) page' where
  answers := by simpa [ha, hlisting] using h.answers
  spots := by rw [hspots, h.spots, loaded_concat_of_none ha]
  annotations := by rw [hannotations, h.annotations, loaded_concat_of_none ha]
  spot := by rw [hspot, h.spot, lastSelected_concat_of_none ha hs]
  unselected := by
    rw [loaded_concat_of_none ha, List.filterMap_append]
    simpa [hs] using h.unselected
  labels := hlabels h.labels
  counted := by simpa [ha, hannotations] using h.counted

/-- The listing is answered once, before anything can be selected. -/
theorem Shows.didGetDocuments {es : List Event} {snapshots : Option (List (String × Dictionary))}
    {page page' : SpotsMapViewController} (h : Shows es page) (hlisting : page.listing = true)
    (hpage : page.didGetDocuments snapshots = some page') :
    Shows (es ++ [.didGetDocuments snapshots]) page' := by
  have hnone : es.filterMap answered = [] := by
    have hanswers := h.answers
    rwa [hlisting, if_pos rfl, List.length_eq_zero_iff] at hanswers
  have hempty : loaded es = [] := by simp [loaded, hnone]
  have hunselected : (es ++ [Event.didGetDocuments snapshots]).filterMap selected = [] := by
    simp [h.unselected hempty, selected]
  have hlast : lastSelected (es ++ [.didGetDocuments snapshots]) = none := by
    simp [lastSelected, hunselected]
  have hspot : page.spot = none := by simp [h.spot, lastSelected, h.unselected hempty]
  have hannotations : page.annotations = [] := by simp [h.annotations, hempty]
  have hspots : page.spots = [] := by rw [h.spots, hempty]
  have hanswers : ((es ++ [Event.didGetDocuments snapshots]).filterMap answered).length = 1 := by
    simp [hnone, answered]
  cases snapshots with
  | none =>
    obtain rfl := Option.some.inj hpage
    have hnothing : loaded (es ++ [.didGetDocuments none]) = [] := by
      simp [loaded_concat, hempty, answered]
    exact ⟨hanswers, by rw [hnothing]; exact hspots, by rw [hnothing]; exact hannotations,
      hspot.trans hlast.symm, fun _ => hunselected, h.labels,
      by simp [hannotations, hnone, answered]⟩
  | some snapshots =>
    obtain ⟨spots, hmap, rfl⟩ := Option.map_eq_some_iff.mp hpage
    have hdecodes := isSome_mapM_iff.mp (Option.isSome_of_eq_some hmap)
    have hloaded : loaded (es ++ [.didGetDocuments (some snapshots)]) = spots := by
      rw [loaded_concat, hempty, List.nil_append]
      exact (Option.some.inj (hmap.symm.trans (mapM_eq_some_filterMap hdecodes))).symm
    have hlength : spots.length = snapshots.length := by
      simpa using (congrArg List.length (mapM_eq_some_iff.mp hmap)).symm
    refine ⟨hanswers, ?_, ?_, hspot.trans hlast.symm, fun _ => hunselected, h.labels, ?_⟩
    · simp [hspots, hloaded, SpotsMapViewController.addAnnotation]
    · simp [hspots, hannotations, hloaded, SpotsMapViewController.addAnnotation]
    · simp [hspots, hannotations, hlength, hnone, answered, SpotsMapViewController.addAnnotation]

theorem Shows.didSelect {es : List Event} {i : ℕ} {page : SpotsMapViewController}
    {point : SpotAnnotation} (h : Shows es page)
    (hi : page.annotations[i]? = some point) :
    Shows (es ++ [.didSelect (some i)]) (page.didSelect (some point)) := by
  have hloaded : loaded (es ++ [.didSelect (some i)]) = loaded es := loaded_concat_of_none rfl
  obtain ⟨spot, hspot, rfl⟩ : ∃ spot, (loaded es)[i]? = some spot ∧
      SpotAnnotation.init spot = point := by
    simpa [h.annotations] using hi
  have hselected : (es ++ [Event.didSelect (some i)]).filterMap selected =
      es.filterMap selected ++ [i] := by simp [selected]
  refine ⟨?_, by rw [hloaded]; exact h.spots, by rw [hloaded]; exact h.annotations, ?_,
    fun hnil => ?_, ⟨rfl, rfl, rfl, rfl⟩, ?_⟩
  · rw [List.filterMap_append, List.filterMap_cons_none rfl, List.filterMap_nil, List.append_nil]
    exact h.answers
  · rw [lastSelected, hselected, List.getLast?_concat, hloaded, Option.bind_some, hspot]
    rfl
  · rw [hloaded] at hnil
    simp [hnil] at hspot
  · rw [List.filterMap_append, List.filterMap_cons_none rfl, List.filterMap_nil, List.append_nil]
    exact h.counted

theorem stepMap_shows {es : List Event} {shown : Bool} {e : Event}
    {page page' : SpotsMapViewController} (h : Shows es page)
    (hstep : stepMap shown page e = some page') : Shows (es ++ [e]) page' := by
  cases e with
  | segmentControlDidChanged index => cases hstep
  | didGetDocuments snapshots =>
    obtain ⟨hlisting, hstep⟩ := Option.ite_none_right_eq_some.mp hstep
    exact h.didGetDocuments hlisting hstep
  | didSelect i =>
    cases i with
    | none =>
      simp only [stepMap] at hstep
      split_ifs at hstep
      obtain rfl := Option.some.inj hstep
      exact h.other rfl rfl rfl rfl rfl rfl id
    | some i =>
      simp only [stepMap] at hstep
      split_ifs at hstep
      obtain ⟨point, hi, rfl⟩ := Option.map_eq_some_iff.mp hstep
      exact h.didSelect hi
  | dismissButtonDidTap =>
    simp only [stepMap] at hstep
    split_ifs at hstep
    obtain rfl := Option.some.inj hstep
    exact h.other rfl rfl rfl rfl rfl rfl id
  | didUpdateLocations last =>
    simp only [stepMap] at hstep
    split_ifs at hstep
    obtain rfl := Option.some.inj hstep
    cases last <;> exact h.other rfl rfl rfl rfl rfl rfl id
  | regionWillChange =>
    obtain rfl := Option.some.inj hstep
    exact h.other rfl rfl rfl rfl rfl rfl id

theorem subviews_segmentControlDidChanged (child child' : Child) :
    (Subviews.bringToFront (Subviews.add (Subviews.remove [.child child, .segmentControl]
      (.child child)) (.child child')) .segmentControl) = [.child child', .segmentControl] := by
  cases child <;> cases child' <;> decide

theorem step_inv {es : List Event} {s t : SpotsViewController}
    {e : Event} (hs : Inv es s) (h : step s e = some t) : Inv (es ++ [e]) t := by
  have hmap : ∀ e, (∀ index, e ≠ .segmentControlDidChanged index) →
      step s e = some t → Inv (es ++ [e]) t := by
    intro e he h
    have hbind : (s.map.bind fun map =>
        (stepMap (s.currentViewController = .map) map e).map fun map =>
          { s with map := some map }) = some t := by
      cases e with
      | segmentControlDidChanged index => exact absurd rfl (he index)
      | didGetDocuments | didSelect | dismissButtonDidTap | didUpdateLocations |
        regionWillChange => exact h
    obtain ⟨page, hpage, hstep⟩ := Option.bind_eq_some_iff.mp hbind
    obtain ⟨page', hpage', rfl⟩ := Option.map_eq_some_iff.mp hstep
    refine ⟨hs.subviews, hs.current, fun _ => rfl, by simp, fun page'' hpage'' => ?_⟩
    obtain rfl := Option.some.inj hpage''
    exact stepMap_shows (hs.map page hpage) hpage'
  cases e with
  | segmentControlDidChanged index =>
    simp only [step] at h
    split_ifs at h with hindex
    obtain rfl := Option.some.inj h
    have hshows : ∀ page, s.map = some page →
        Shows (es ++ [.segmentControlDidChanged index]) page :=
      fun page hpage => (hs.map page hpage).other rfl rfl rfl rfl rfl rfl id
    have hunloaded : s.map = none → ∀ x ∈ es ++ [Event.segmentControlDidChanged index],
        answered x = none ∧ selected x = none :=
      fun hnone => forall_mem_concat (hs.unloaded hnone) ⟨rfl, rfl⟩
    have hsubviews := subviews_segmentControlDidChanged s.currentViewController
    rw [← hs.subviews] at hsubviews
    by_cases hfirst : index = 0
    · subst hfirst
      exact ⟨hsubviews .collection, rfl, by simp [SpotsViewController.segmentControlDidChanged],
        hunloaded, hshows⟩
    · have hchild : (s.segmentControlDidChanged index).currentViewController = .map := if_neg hfirst
      have hmap : (s.segmentControlDidChanged index).map = some (s.map.getD .viewDidLoad) := by
        simp [SpotsViewController.segmentControlDidChanged, hfirst]
      refine ⟨?_, hchild.trans (if_neg hfirst).symm, fun _ => by simp [hmap], by simp [hmap],
        fun page hpage => ?_⟩
      · rw [hchild, ← hsubviews .map]
        simp [SpotsViewController.segmentControlDidChanged, hfirst]
      · rw [hmap, Option.some.injEq] at hpage
        subst hpage
        cases hloaded : s.map with
        | none => exact shows_start (hunloaded hloaded)
        | some page => exact hshows page hloaded
  | didGetDocuments snapshots => exact hmap _ (by simp) h
  | didSelect i => exact hmap _ (by simp) h
  | dismissButtonDidTap => exact hmap _ (by simp) h
  | didUpdateLocations last => exact hmap _ (by simp) h
  | regionWillChange => exact hmap _ (by simp) h

theorem inv_viewDidLoad : Inv [] .viewDidLoad := by
  refine ⟨by decide, rfl, by simp [SpotsViewController.viewDidLoad], by simp, ?_⟩
  simp [SpotsViewController.viewDidLoad]

/-- Whatever happens on the page: of its children and the control it shows the child of
the selected segment, and the control above it; the map has been answered at most once,
and has one point for every document of that answer and none before; and its labels
are those of the point that was selected last. -/
theorem page_shows {es : List Event} {s : SpotsViewController}
    (hr : run step .viewDidLoad es = some s) :
    s.subviews = [.child (if s.selectedSegmentIndex = 0 then .collection else .map),
      .segmentControl] ∧
    (s.selectedSegmentIndex ≠ 0 → s.map.isSome = true) ∧
    ∀ page, s.map = some page →
      (es.filterMap answered).length = (if page.listing then 0 else 1) ∧
      page.annotations = (loaded es).map SpotAnnotation.init ∧
      page.annotations.length = (es.filterMap answered).flatten.length ∧
      page.spot = lastSelected es ∧ Labelled page := by
  have hinv := invariant_of_prefix (I := Inv) (fun pre m e m' _ hm h => step_inv hm h)
    inv_viewDidLoad hr
  refine ⟨by rw [hinv.subviews, hinv.current], fun hne => hinv.loaded ?_, fun page hpage => ?_⟩
  · rw [hinv.current, if_neg hne]
  · have hshows := hinv.map page hpage
    exact ⟨hshows.answers, hshows.annotations, hshows.counted, hshows.spot, hshows.labels⟩

/-- The listing is answered while the list of the city is shown again, and the second of
the two annotations is selected. -/
def sampleVisit : List Event :=
  [.segmentControlDidChanged 1, .segmentControlDidChanged 0,
    .didGetDocuments (some [("a", (sampleSpot "a" none).dictionary),
      ("b", (sampleSpot "b" none).dictionary)]),
    .segmentControlDidChanged 1, .didSelect (some 1), .didSelect none, .regionWillChange]

theorem page_shows_sample :
    ∃ s page, run step .viewDidLoad sampleVisit = some s ∧ s.map = some page ∧
      page.annotations.length = 2 ∧ page.spot = some (sampleSpot "b" none) ∧ Labelled page := by
  have h := @page_shows sampleVisit _ rfl
  obtain ⟨-, -, hcounted, hspot, hlabels⟩ := h.2.2 _ rfl
  refine ⟨_, _, rfl, rfl, ?_, ?_, hlabels⟩
  · rw [hcounted]
    rfl
  · rw [hspot]
    rfl

end TaiwanSpots.MapPage
