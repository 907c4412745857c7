import TaiwanSpots.Pages
import TaiwanSpots.Rebuild
import TaiwanSpots.FavoriteButton

/-!
# Loading the page of a city

`getSpots` fetches every spot of the city and the document of the account, all
at once. Each spot that arrives is appended to the list, which reloads the
collection view and draws its visible cells; the favourites that arrive are
stored and nothing is drawn. The hearts are therefore right when the favourites
are there for the last spot, whatever the order of the others.
-/
namespace TaiwanSpots.CityPage
open Runs FavoriteButton

/-- A page that is being loaded. `spotFetches` holds the documents still on their way,
each at the place of its id in `spotIds`; `cell` is what the collection view shows at an
item. -/
structure Loading where
  page : SpotsViewController
  hud : HUD
  group : DispatchGroup
  spotFetches : List (Option DocumentReference)
  userFetch : Option String
  notified : Bool
  cell : ℕ → Option (Spot × Bool)

/-- The page with the fetches of these documents, and of the account, on their way. -/
def opened (page : SpotsViewController) (hud : HUD) (currentUser : Option String)
    (refs : List DocumentReference) : Loading where
  page := page
  hud := hud.showLoading
  group := ⟨page.spotIds.length + currentUser.toList.length, 0⟩
  spotFetches := refs.map some
  userFetch := currentUser
  notified := false
  cell := fun _ => none

/-- Everything that `getSpots` starts; `none` when the path of an id raises. -/
def getSpots (page : SpotsViewController) (hud : HUD) (currentUser : Option String) :
    Option Loading :=
  (page.spotIds.mapM Collection.spots.document).map fun refs => opened page hud currentUser refs

/-- The page of a city before anything has been loaded. -/
def vc (spotsIds : List String) : SpotsViewController := ⟨spotsIds, [], [], [], [], 0⟩

/-- The cells that a reload draws, with the hearts of `spot.didSet`. -/
def draw (visible : ℕ → Bool) (spots : List Spot) (favoriteSpotsIDs : List String) :
    ℕ → Option (Spot × Bool) :=
  fun item =>
    if visible item then
      spots[item]?.map fun spot => (spot, decide (spot.id ∈ favoriteSpotsIDs))
    else none

def Loading.leave (s : Loading) : Loading :=
  { s with group := ⟨s.group.entered, s.group.left + 1⟩ }

/-- The callback of a spot fetch; `none` is the trap of the decoder. -/
def didGetSpot (visible : ℕ → Bool) (s : Loading) : Reply → Option Loading
  | .error => some s
  | .snapshot none => some s.leave
  | .snapshot (some dict) =>
    (Spot.initFirestoreDictionary dict).map fun spot =>
      let page := s.page.setSpots (s.page.spots ++ [spot])
      { s with
        page
        cell := draw visible page.spotsCollectionViewController.spots
          page.favoriteSpotsIDs }.leave

/-- The callback of the user fetch. -/
def didGetUser (s : Loading) : Reply → Loading
  | .error => s
  | .snapshot none => s.leave
  | .snapshot (some data) =>
    match data.strings "favoriteSpots" with
    | some favoriteSpotsArray =>
      { s with page := { s.page with favoriteSpotsIDs := favoriteSpotsArray } }.leave
    | none => s.leave

inductive Event where
  | didGetSpot (index : ℕ) (ok : Bool)
  | didGetUser (ok : Bool)
  | notify
  deriving DecidableEq, Repr

/-- Every request succeeds. -/
def Event.succeeds : Event → Bool
  | .didGetSpot _ ok | .didGetUser ok => ok
  | .notify => true

def step (db : Firestore) (visible : ℕ → Bool) (s : Loading) : Event → Option Loading
  | .didGetSpot i ok =>
    match s.spotFetches[i]? with
    | some (some ref) =>
      didGetSpot visible { s with spotFetches := s.spotFetches.set i none }
        (db.getDocument ref ok)
    | _ => none
  | .didGetUser ok =>
    s.userFetch.map fun uid =>
      didGetUser { s with userFetch := none } (db.getDocument (userRef uid) ok)
  | .notify =>
    if s.group.left = s.group.entered ∧ s.notified = false then
      some { s with hud := s.hud.hideLoading, notified := true }
    else none

/-- Every fetch has called back. -/
def Loading.Answered (s : Loading) : Prop :=
  (∀ fetch ∈ s.spotFetches, fetch = none) ∧ s.userFetch = none

/-- The spot that a reply carries. -/
def arrival (db : Firestore) (spotIds : List String) : Event → Option Spot
  | .didGetSpot i true =>
    spotIds[i]?.bind fun id => (db.spotDocument id).bind Spot.initFirestoreDictionary
  | _ => none

/-- The spots in the order of the replies. -/
def arrived (db : Firestore) (spotIds : List String) (es : List Event) : List Spot :=
  es.filterMap (arrival db spotIds)

/-- The events after the reply for the account. -/
def afterUser (es : List Event) : List Event :=
  (es.dropWhile fun e => e ≠ .didGetUser true).tail

/-- The fetches on their way are those of the page. -/
def Loading.Fetching (s : Loading) : Prop :=
  ∀ (i : ℕ) (ref : DocumentReference), s.spotFetches[i]? = some (some ref) →
    ∃ id, s.page.spotIds[i]? = some id ∧ Collection.spots.document id = some ref

theorem getSpots_cases {page : SpotsViewController} {hud : HUD} {currentUser : Option String}
    {s : Loading} (h : getSpots page hud currentUser = some s) :
    ∃ refs, page.spotIds.map Collection.spots.document = refs.map some ∧
      s = opened page hud currentUser refs := by
  obtain ⟨refs, hrefs, rfl⟩ := Option.map_eq_some_iff.mp h
  exact ⟨refs, mapM_eq_some_iff.mp hrefs, rfl⟩

theorem getSpots_of_refs {page : SpotsViewController} {hud : HUD} {currentUser : Option String}
    {refs : List DocumentReference}
    (hrefs : page.spotIds.map Collection.spots.document = refs.map some) :
    getSpots page hud currentUser = some (opened page hud currentUser refs) := by
  rw [getSpots, mapM_eq_some_iff.mpr hrefs, Option.map_some]

theorem isSome_getSpots {page : SpotsViewController} {hud : HUD} {currentUser : Option String} :
    (getSpots page hud currentUser).isSome = true ↔
      ∀ id ∈ page.spotIds, (Collection.spots.document id).isSome = true := by
  rw [getSpots, Option.isSome_map]
  exact isSome_mapM_iff

theorem getSpots_fetching {page : SpotsViewController} {hud : HUD} {currentUser : Option String}
    {s : Loading} (h : getSpots page hud currentUser = some s) : s.Fetching := by
  obtain ⟨refs, hrefs, rfl⟩ := getSpots_cases h
  intro i ref hi
  have hpath : (page.spotIds.map Collection.spots.document)[i]? = some (some ref) := hrefs ▸ hi
  rw [List.getElem?_map, Option.map_eq_some_iff] at hpath
  exact hpath

/-- Everything that one event can do. -/
inductive Step (db : Firestore) (visible : ℕ → Bool) (s : Loading) : Event → Loading → Prop where
  | lost {i : ℕ} {ref : DocumentReference} (hfetch : s.spotFetches[i]? = some (some ref)) :
      Step db visible s (.didGetSpot i false) { s with spotFetches := s.spotFetches.set i none }
  | missing {i : ℕ} {ref : DocumentReference} (hfetch : s.spotFetches[i]? = some (some ref))
      (hdoc : db.lookup ref = none) :
      Step db visible s (.didGetSpot i true)
        { s with spotFetches := s.spotFetches.set i none }.leave
  | arrived {i : ℕ} {ref : DocumentReference} {dict : Dictionary} {spot : Spot}
      (hfetch : s.spotFetches[i]? = some (some ref)) (hdoc : db.lookup ref = some dict)
      (hspot : Spot.initFirestoreDictionary dict = some spot) :
      Step db visible s (.didGetSpot i true)
        { s with
          spotFetches := s.spotFetches.set i none
          page := s.page.setSpots (s.page.spots ++ [spot])
          cell := draw visible (s.page.spots ++ [spot]) s.page.favoriteSpotsIDs }.leave
  | userLost {uid : String} (huser : s.userFetch = some uid) :
      Step db visible s (.didGetUser false) { s with userFetch := none }
  | unlisted {uid : String} (huser : s.userFetch = some uid) (hnone : stored db uid = []) :
      Step db visible s (.didGetUser true) { s with userFetch := none }.leave
  | listed {uid : String} (huser : s.userFetch = some uid) :
      Step db visible s (.didGetUser true)
        { s with
          userFetch := none
          page := { s.page with favoriteSpotsIDs := stored db uid } }.leave
  | notify (hgroup : s.group.left = s.group.entered) (hnotified : s.notified = false) :
      Step db visible s .notify { s with hud := s.hud.hideLoading, notified := true }

theorem step_cases {db : Firestore} {visible : ℕ → Bool} {s t : Loading} {e : Event}
    (h : step db visible s e = some t) : Step db visible s e t := by
  cases e with
  | didGetSpot i ok =>
    simp only [step] at h
    split at h
    · rename_i ref hfetch
      cases ok with
      | false =>
        obtain rfl := Option.some.inj h
        exact .lost hfetch
      | true =>
        cases hdoc : db.lookup ref with
        | none =>
          simp only [Firestore.getDocument, hdoc, didGetSpot, if_true] at h
          obtain rfl := Option.some.inj h
          exact .missing hfetch hdoc
        | some dict =>
          simp only [Firestore.getDocument, hdoc, didGetSpot, if_true,
            Option.map_eq_some_iff] at h
          obtain ⟨spot, hspot, rfl⟩ := h
          exact .arrived hfetch hdoc hspot
    · cases h
  | didGetUser ok =>
    obtain ⟨uid, huser, rfl⟩ := Option.map_eq_some_iff.mp h
    cases ok with
    | false => exact .userLost huser
    | true =>
      cases hdoc : db.lookup (userRef uid) with
      | none =>
        simp only [Firestore.getDocument, hdoc, didGetUser, if_true]
        exact .unlisted huser (stored_of_missing hdoc)
      | some data =>
        simp only [Firestore.getDocument, hdoc, didGetUser, if_true]
        cases hids : data.strings "favoriteSpots" with
        | none => exact .unlisted huser (by simp [stored_of_lookup hdoc, favorites, hids])
        | some ids =>
          have hstored : stored db uid = ids :=
            (stored_of_lookup hdoc).trans (favorites_of_strings hids)
          exact hstored ▸ .listed huser
  | notify =>
    simp only [step] at h
    split_ifs at h with hnotify
    obtain rfl := Option.some.inj h
    exact .notify hnotify.1 hnotify.2

/-- A fetch that has called back is on its way no longer. -/
theorem Loading.Fetching.set {s : Loading} (hs : s.Fetching) (i : ℕ) :
    ({ s with spotFetches := s.spotFetches.set i none } : Loading).Fetching := by
  intro j ref hj
  rw [List.getElem?_set] at hj
  split_ifs at hj
  · cases hj
  · exact hs j ref hj

/-- Everything that a reply that succeeds does to the page and its cells. -/
theorem step_replies {db : Firestore} {visible : ℕ → Bool} {s t : Loading} {e : Event}
    (hs : s.Fetching) (he : e.succeeds = true) (h : step db visible s e = some t) :
    t.Fetching ∧ t.page.spotIds = s.page.spotIds ∧
      t.page.spots = s.page.spots ++ (arrival db s.page.spotIds e).toList ∧
      t.cell = if (arrival db s.page.spotIds e).isSome then
        draw visible t.page.spots s.page.favoriteSpotsIDs else s.cell := by
  cases step_cases h with
  | lost hfetch => cases he
  | @missing i ref hfetch hdoc =>
    obtain ⟨id, hid, href⟩ := hs i ref hfetch
    have hnone : arrival db s.page.spotIds (.didGetSpot i true) = none := by
      simp [arrival, Firestore.spotDocument, hid, href, hdoc]
    exact ⟨hs.set i, rfl, by simp [hnone, Loading.leave], by simp [hnone, Loading.leave]⟩
  | @arrived i ref dict spot hfetch hdoc hspot =>
    obtain ⟨id, hid, href⟩ := hs i ref hfetch
    have hsome : arrival db s.page.spotIds (.didGetSpot i true) = some spot := by
      simp [arrival, Firestore.spotDocument, hid, href, hdoc, hspot]
    refine ⟨hs.set i, rfl, ?_, ?_⟩
    · rw [hsome]
      rfl
    · rw [hsome]
      rfl
  | userLost huser => cases he
  | unlisted huser hnone => exact ⟨hs, rfl, by simp [arrival, Loading.leave], rfl⟩
  | listed huser => exact ⟨hs, rfl, by simp [arrival, Loading.leave], rfl⟩
  | notify hgroup hnotified => exact ⟨hs, rfl, by simp [arrival], rfl⟩

/-- The favourites change with the reply for the account and with nothing else. -/
theorem step_favorites {db : Firestore} {visible : ℕ → Bool} {s t : Loading} {e : Event}
    (he : e.succeeds = true) (h : step db visible s e = some t) :
    (e ≠ .didGetUser true ∧ t.userFetch = s.userFetch ∧
        t.page.favoriteSpotsIDs = s.page.favoriteSpotsIDs) ∨
      (e = .didGetUser true ∧ ∃ uid, s.userFetch = some uid ∧ t.userFetch = none ∧
        (s.page.favoriteSpotsIDs = [] → t.page.favoriteSpotsIDs = stored db uid)) := by
  cases step_cases h with
  | lost hfetch => cases he
  | missing hfetch hdoc => exact .inl ⟨by simp, rfl, rfl⟩
  | arrived hfetch hdoc hspot => exact .inl ⟨by simp, rfl, rfl⟩
  | userLost huser => cases he
  | @unlisted uid huser hnone =>
    exact .inr ⟨rfl, uid, huser, rfl, fun hnil => hnil.trans hnone.symm⟩
  | @listed uid huser => exact .inr ⟨rfl, uid, huser, rfl, fun _ => rfl⟩
  | notify hgroup hnotified => exact .inl ⟨by simp, rfl, rfl⟩

/-- The spots that are still to arrive. -/
def awaited (db : Firestore) (s : Loading) : List Spot :=
  s.spotFetches.filterMap fun fetch =>
    fetch.bind fun ref => (db.lookup ref).bind Spot.initFirestoreDictionary

/-- The spots of the ids are awaited. -/
theorem awaited_getSpots {db : Firestore} {page : SpotsViewController} {hud : HUD}
    {currentUser : Option String} {s : Loading} (h : getSpots page hud currentUser = some s) :
    awaited db s = page.spotIds.filterMap fun id =>
      (db.spotDocument id).bind Spot.initFirestoreDictionary := by
  obtain ⟨refs, hrefs, rfl⟩ := getSpots_cases h
  simp only [awaited, opened, Firestore.spotDocument, ← hrefs, List.filterMap_map,
    Function.comp_def, Option.bind_assoc]

/-- A reply takes its spot from those that are awaited to those that are there. -/
theorem step_awaited {db : Firestore} {visible : ℕ → Bool} {s t : Loading} {e : Event}
    (he : e.succeeds = true) (h : step db visible s e = some t) :
    (t.page.spots ++ awaited db t).Perm (s.page.spots ++ awaited db s) := by
  cases step_cases h with
  | lost hfetch => cases he
  | @missing i ref hfetch hdoc =>
    have hmoves := filterMap_set_perm (b := none) (f := fun fetch : Option DocumentReference =>
      fetch.bind fun ref => (db.lookup ref).bind Spot.initFirestoreDictionary) hfetch rfl
    simp only [Option.bind_some, hdoc, Option.bind_none, Option.toList_none,
      List.nil_append] at hmoves
    exact hmoves.symm.append_left _
  | @arrived i ref dict spot hfetch hdoc hspot =>
    have hmoves := filterMap_set_perm (b := none) (f := fun fetch : Option DocumentReference =>
      fetch.bind fun ref => (db.lookup ref).bind Spot.initFirestoreDictionary) hfetch rfl
    simp only [Option.bind_some, hdoc, hspot, Option.toList_some] at hmoves
    show (s.page.spots ++ [spot] ++ _).Perm _
    rw [List.append_assoc]
    exact hmoves.symm.append_left _
  | userLost huser => cases he
  | unlisted huser hnone => exact List.Perm.refl _
  | listed huser => exact List.Perm.refl _
  | notify hgroup hnotified => exact List.Perm.refl _

/-- The spots behind the items of the page. -/
def displayed (page : SpotsViewController) : List Spot :=
  let collection := page.spotsCollectionViewController
  collection.spots.take collection.numberOfItems

/-- No path raises, and however the fetches for the ids call back: none of them traps, and
when all of them have, the page displays the spots in some order. -/
def Displays (db : Firestore) (ids : List String) (spots : List Spot) : Prop :=
  ∀ hud currentUser, ∃ s, getSpots (vc ids) hud currentUser = some s ∧
    ∀ visible es t, (∀ e ∈ es, Event.succeeds e = true) → run (step db visible) s es = some t →
      (∀ (i : ℕ) ref, t.spotFetches[i]? = some (some ref) →
        (step db visible t (.didGetSpot i true)).isSome = true) ∧
      (t.Answered → (displayed t.page).Perm spots)

/-- The collection view has counted the spots that the page has handed on to it. -/
def Shown (page : SpotsViewController) : Prop :=
  page.spotsCollectionViewController.spots = page.spots ∧
    page.spotsCollectionViewController.numberOfItems = page.spots.length

theorem displayed_of_shown {page : SpotsViewController} (h : Shown page) :
    displayed page = page.spots := by
  simp only [displayed, h.1, h.2, List.take_length]

theorem step_shown {db : Firestore} {visible : ℕ → Bool} {s t : Loading} {e : Event}
    (hs : Shown s.page) (h : step db visible s e = some t) : Shown t.page := by
  cases step_cases h with
  | arrived hfetch hdoc hspot => exact ⟨rfl, rfl⟩
  | lost | missing | userLost | unlisted | listed | notify => exact hs

/-- Ids whose documents decode are displayed, each with its document. -/
theorem displays_of_decoded {db : Firestore} {ids : List String} {spots : List Spot}
    (h : (ids.map fun id => (db.spotDocument id).bind Spot.initFirestoreDictionary) =
      spots.map some) : Displays db ids spots := by
  have hread : ∀ id ∈ ids, ∃ spot,
      (db.spotDocument id).bind Spot.initFirestoreDictionary = some spot := by
    intro id hid
    have hmem : (db.spotDocument id).bind Spot.initFirestoreDictionary ∈ spots.map some :=
      h ▸ List.mem_map_of_mem hid
    obtain ⟨spot, -, hspot⟩ := List.mem_map.mp hmem
    exact ⟨spot, hspot.symm⟩
  intro hud currentUser
  have hopen : (getSpots (vc ids) hud currentUser).isSome = true := by
    refine isSome_getSpots.mpr fun id hid => ?_
    obtain ⟨spot, hspot⟩ := hread id hid
    obtain ⟨dict, hdict, -⟩ := Option.bind_eq_some_iff.mp hspot
    obtain ⟨ref, href, -⟩ := Option.bind_eq_some_iff.mp hdict
    exact Option.isSome_of_eq_some href
  obtain ⟨s, hs⟩ := Option.isSome_iff_exists.mp hopen
  refine ⟨s, hs, fun visible es t he hr => ?_⟩
  have hstart : s.page.spotIds = ids ∧ Shown s.page ∧ s.page.spots = [] ∧
      awaited db s = spots := by
    have hawaited := @awaited_getSpots db _ _ _ _ hs
    obtain ⟨refs, -, rfl⟩ := getSpots_cases hs
    refine ⟨rfl, ⟨rfl, rfl⟩, rfl, hawaited.trans ?_⟩
    have hfilter := congrArg List.reduceOption h
    simpa [List.reduceOption, List.filterMap_map, Function.comp_def, vc] using hfilter
  obtain ⟨hids, hshown, hnil, hawaited⟩ := hstart
  have hend : t.Fetching ∧ t.page.spotIds = ids ∧ Shown t.page ∧
      (t.page.spots ++ awaited db t).Perm spots := by
    refine invariant (I := fun s : Loading => s.Fetching ∧ s.page.spotIds = ids ∧
      Shown s.page ∧ (s.page.spots ++ awaited db s).Perm spots) ?_
      ⟨getSpots_fetching hs, hids, hshown, by rw [hnil, hawaited, List.nil_append]⟩
      (along_of_forall he) hr
    rintro s e m ⟨hfetching, hids, hshown, hperm⟩ hok hm
    obtain ⟨hfetching', hids', -, -⟩ := step_replies hfetching hok hm
    exact ⟨hfetching', hids'.trans hids, step_shown hshown hm,
      (step_awaited hok hm).trans hperm⟩
  obtain ⟨hfetching, hids, hshown, hperm⟩ := hend
  refine ⟨fun i ref hi => ?_, fun hdone => ?_⟩
  · obtain ⟨id, hid, href⟩ := hfetching i ref hi
    obtain ⟨spot, hspot⟩ := hread id (hids ▸ List.mem_of_getElem? hid)
    rw [Firestore.spotDocument, href, Option.bind_some] at hspot
    obtain ⟨dict, hdoc, hdecode⟩ := Option.bind_eq_some_iff.mp hspot
    simp [step, hi, Firestore.getDocument, hdoc, didGetSpot, hdecode]
  · have hnone : awaited db t = [] := by
      rw [awaited, List.filterMap_eq_nil_iff]
      intro fetch hfetch
      rw [hdone.1 fetch hfetch]
      rfl
    rw [displayed_of_shown hshown]
    simpa [hnone] using hperm

/-- The displayed spots are those that have arrived, in the order of their replies. -/
theorem run_spots {db : Firestore} {visible : ℕ → Bool} {s t : Loading} {es : List Event}
    (hs : s.Fetching) (he : ∀ e ∈ es, e.succeeds = true)
    (hr : run (step db visible) s es = some t) :
    t.page.spots = s.page.spots ++ arrived db s.page.spotIds es := by
  induction es generalizing s with
  | nil =>
    obtain rfl := Option.some.inj hr
    simp [arrived]
  | cons e es ih =>
    obtain ⟨m, hm, hrest⟩ := run_cons.mp hr
    obtain ⟨hfetching, hids, hspots, -⟩ := step_replies hs (he e (by simp)) hm
    rw [ih hfetching (fun e he' => he e (by simp [he'])) hrest, hspots, hids, List.append_assoc]
    cases harrival : arrival db s.page.spotIds e <;> simp [arrived, harrival]

/-- Once the reply for the account is in, the cells are redrawn with its favourites
as soon as another spot arrives. -/
theorem run_after_user {db : Firestore} {visible : ℕ → Bool} {s t : Loading} {es : List Event}
    (hs : s.Fetching) (huser : s.userFetch = none) (he : ∀ e ∈ es, e.succeeds = true)
    (hr : run (step db visible) s es = some t) :
    t.cell = if arrived db s.page.spotIds es = [] then s.cell
      else draw visible t.page.spots s.page.favoriteSpotsIDs := by
  induction es generalizing s with
  | nil =>
    obtain rfl := Option.some.inj hr
    simp [arrived]
  | cons e es ih =>
    obtain ⟨m, hm, hrest⟩ := run_cons.mp hr
    have hlater : ∀ e ∈ es, e.succeeds = true := fun e he' => he e (by simp [he'])
    obtain ⟨hfetching, hids, -, hcell⟩ := step_replies hs (he e (by simp)) hm
    obtain ⟨-, hfetch, hfav⟩ | ⟨-, uid, hsome, -⟩ := step_favorites (he e (by simp)) hm
    · have hmt := run_spots hfetching hlater hrest
      rw [ih hfetching (hfetch.trans huser) hlater hrest, hcell, hfav, hids]
      cases harrival : arrival db s.page.spotIds e with
      | none => simp [arrived, harrival]
      | some spot =>
        by_cases hnil : arrived db s.page.spotIds es = []
        · rw [hids, hnil, List.append_nil] at hmt
          simp only [arrived] at hnil
          simp [arrived, harrival, hnil, hmt]
        · simp only [arrived] at hnil
          simp [arrived, harrival, hnil]
    · rw [huser] at hsome
      cases hsome

/-- The cells at the end are drawn with the favourites if a spot has arrived after
them, and without any otherwise. -/
theorem run_cells {db : Firestore} {visible : ℕ → Bool} {s t : Loading} {es : List Event}
    {uid : String} (hs : s.Fetching) (huser : s.userFetch = some uid)
    (hfav : s.page.favoriteSpotsIDs = []) (hcell : s.cell = draw visible s.page.spots [])
    (he : ∀ e ∈ es, e.succeeds = true) (hr : run (step db visible) s es = some t)
    (hdone : t.userFetch = none) :
    t.cell = draw visible t.page.spots
      (if arrived db s.page.spotIds (afterUser es) = [] then [] else stored db uid) := by
  induction es generalizing s with
  | nil =>
    obtain rfl := Option.some.inj hr
    rw [huser] at hdone
    cases hdone
  | cons e es ih =>
    obtain ⟨m, hm, hrest⟩ := run_cons.mp hr
    have hlater : ∀ e ∈ es, e.succeeds = true := fun e he' => he e (by simp [he'])
    obtain ⟨hfetching, hids, hspots, hdrawn⟩ := step_replies hs (he e (by simp)) hm
    have hmcell : m.cell = draw visible m.page.spots [] := by
      rw [hdrawn, hspots]
      cases harrival : arrival db s.page.spotIds e <;> simp [hfav, hcell]
    rcases step_favorites (he e (by simp)) hm with ⟨hne, hfetch, hsame⟩ |
        ⟨rfl, uid', hsome, hnone, hfavm⟩
    · have hafter : afterUser (e :: es) = afterUser es := by simp [afterUser, hne]
      rw [hafter, ← hids]
      exact ih hfetching (hfetch.trans huser) (hsame.trans hfav) hmcell hlater hrest
    · obtain rfl : uid' = uid := Option.some.inj (hsome.symm.trans huser)
      have hafter : afterUser (.didGetUser true :: es) = es := by simp [afterUser]
      have hend := run_spots hfetching hlater hrest
      rw [hafter, run_after_user hfetching hnone hlater hrest, hfavm hfav, hmcell, ← hids]
      split_ifs with hnil
      · rw [hend, hnil, List.append_nil]
      · rfl

/-- The hearts of a page that has loaded are right exactly when none of the visible
spots is a favourite, or some spot has arrived after the favourites. -/
theorem hearts_right_iff {db : Firestore} {visible : ℕ → Bool} {spotIds : List String} {hud : HUD}
    {uid : String} {es : List Event} {s t : Loading} (he : ∀ e ∈ es, e.succeeds = true)
    (hopen : getSpots (vc spotIds) hud (some uid) = some s)
    (hr : run (step db visible) s es = some t) (hdone : t.Answered) :
    (∀ i cell, t.cell i = some cell → (cell.2 = true ↔ cell.1.id ∈ stored db uid)) ↔
      (∀ (i : ℕ) spot, visible i = true → (arrived db spotIds es)[i]? = some spot →
        spot.id ∉ stored db uid) ∨ arrived db spotIds (afterUser es) ≠ [] := by
  have hfetching := getSpots_fetching hopen
  obtain ⟨refs, -, rfl⟩ := getSpots_cases hopen
  have hspots : t.page.spots = arrived db spotIds es := run_spots hfetching he hr
  have hcell := run_cells hfetching rfl rfl (by funext i; simp [opened, vc, draw]) he hr hdone.2
  have hids : (opened (vc spotIds) hud (some uid) refs).page.spotIds = spotIds := rfl
  rw [hcell, hspots, hids]
  split_ifs with hnil
  · simp only [hnil, ne_eq, not_true_eq_false, or_false]
    constructor
    · intro h i spot hvisible hspot hmem
      have hheart := h i (spot, false) (by simp [draw, hvisible, hspot])
      exact absurd (hheart.mpr hmem) nofun
    · intro h i cell hi
      simp only [draw] at hi
      split_ifs at hi with hvisible
      obtain ⟨spot, hspot, rfl⟩ := Option.map_eq_some_iff.mp hi
      exact iff_of_false (by simp) (h i spot hvisible hspot)
  · refine iff_of_true (fun i cell hi => ?_) (.inr hnil)
    simp only [draw] at hi
    split_ifs at hi
    obtain ⟨spot, -, rfl⟩ := Option.map_eq_some_iff.mp hi
    exact decide_eq_true_iff

/-- Two spots, of which the first is a favourite of the account `u`. -/
def sampleStore : Firestore :=
  ((AList.singleton ⟨.spots, "a"⟩ (sampleSpot "a" none).dictionary).insert ⟨.spots, "b"⟩
    (sampleSpot "b" none).dictionary).insert (userRef "u") (favoriteData (some ["a"]))

/-- Every item is on the screen. -/
def sampleVisible (_ : ℕ) : Bool := true

/-- The page of the two spots as its fetches are on their way. -/
def sampleLoading : Loading where
  page := vc ["a", "b"]
  hud := ⟨some 0, 1, []⟩
  group := ⟨3, 0⟩
  spotFetches := [some ⟨.spots, "a"⟩, some ⟨.spots, "b"⟩]
  userFetch := some "u"
  notified := false
  cell := fun _ => none

/-- A spot arrives after the favourites. -/
theorem hearts_right_iff_sample :
    ∃ t, run (step sampleStore sampleVisible) sampleLoading
        [.didGetSpot 0 true, .didGetUser true, .didGetSpot 1 true, .notify] = some t ∧
      ∀ i cell, t.cell i = some cell → (cell.2 = true ↔ cell.1.id ∈ stored sampleStore "u") :=
  ⟨_, rfl, (@hearts_right_iff sampleStore sampleVisible ["a", "b"] ⟨none, 0, []⟩ "u"
    [.didGetSpot 0 true, .didGetUser true, .didGetSpot 1 true, .notify] sampleLoading _
    (by decide) rfl rfl ⟨by decide, rfl⟩).mpr (.inr (by decide))⟩

/-- The heart of a favourite stays off. -/
theorem heart_misses_late_favorites :
    ∃ es t, (∀ e ∈ es, Event.succeeds e = true) ∧
      getSpots (vc ["a", "b"]) ⟨none, 0, []⟩ (some "u") = some sampleLoading ∧
      run (step sampleStore sampleVisible) sampleLoading es = some t ∧ t.Answered ∧
      ¬ ∀ i cell, t.cell i = some cell → (cell.2 = true ↔ cell.1.id ∈ stored sampleStore "u") := by
  refine ⟨[.didGetSpot 0 true, .didGetSpot 1 true, .didGetUser true, .notify], _, by decide, rfl,
    rfl, ⟨by decide, rfl⟩, fun h => ?_⟩
  exact absurd ((h 0 _ rfl).mpr (by decide)) (by decide)

end TaiwanSpots.CityPage
