import TaiwanSpots.CityPage
import TaiwanSpots.FavoritesPage
import TaiwanSpots.SearchPage

/-!
# The pages behind the tab bar

One process holds the page of the cities, the pages of the spots that are opened
from it and the pages of the favourites. Each page loads on its own while the
cells of all of them are configured and tapped. The pages are numbered by who
opens them, and a number is used once.
-/
namespace TaiwanSpots.Screens
open Runs

/-- `listing` tells whether the listing of the cities is on its way. Of the loadings,
the page and the indicator are those of the device. -/
structure Tabs where
  searchViewController : SearchViewController
  listing : Bool
  device : FavoriteButton.Device
  cityLoads : ℕ → Option CityPage.Loading
  favoritesLoads : ℕ → Option FavoritesPage.Loading

/-- The app as it starts. -/
def launch (currentUser : Option String) : Tabs where
  searchViewController := .init
  listing := true
  device :=
    { currentUser
      hud := ⟨none, 0, []⟩
      pages := ⟨fun _ => CityPage.vc [], fun _ => ⟨[], [], 0⟩, fun _ => none⟩
      taps := [] }
  cityLoads := fun _ => none
  favoritesLoads := fun _ => none

namespace Tabs

def pages (s : Tabs) : Pages := s.device.pages

/-- The loading of the page of a city. -/
def cityLoading (s : Tabs) (page : ℕ) : Option CityPage.Loading :=
  (s.cityLoads page).map fun loading =>
    { loading with page := s.pages.spotsViewController page, hud := s.device.hud }

def setCityLoading (s : Tabs) (page : ℕ) (loading : CityPage.Loading) : Tabs :=
  { s with
    device :=
      { s.device with
        hud := loading.hud
        pages := s.pages.updateCityPage page loading.page }
    cityLoads := Function.update s.cityLoads page (some loading) }

/-- The loading of a page of the favourites. -/
def favoritesLoading (s : Tabs) (page : ℕ) : Option FavoritesPage.Loading :=
  (s.favoritesLoads page).map fun loading =>
    { loading with page := s.pages.favoriteSpotsViewController page, hud := s.device.hud }

def setFavoritesLoading (s : Tabs) (page : ℕ) (loading : FavoritesPage.Loading) : Tabs :=
  { s with
    device :=
      { s.device with
        hud := loading.hud
        pages := s.pages.updateFavoritesPage page loading.page }
    favoritesLoads := Function.update s.favoritesLoads page (some loading) }

/-- `didSelectItemAt` of the page of the cities: the tile may open a page. -/
def didSelectCity (s : Tabs) (item page : ℕ) : Option Tabs :=
  match s.searchViewController.didSelectItemAt item with
  | none => none
  | some none => some s
  | some (some (_, cityIds)) =>
    if (s.cityLoads page).isSome then none
    else
      (CityPage.getSpots (CityPage.vc cityIds) s.device.hud s.device.currentUser).map fun loading =>
        s.setCityLoading page loading

/-- The row of the profile page that opens a page of the favourites. -/
def openFavorites (s : Tabs) (page : ℕ) : Option Tabs :=
  if (s.favoritesLoads page).isSome then none
  else some (s.setFavoritesLoading page
    (FavoritesPage.viewDidLoad s.device.hud s.device.currentUser))

end Tabs

/-- `write` is a write of another client. -/
inductive Event where
  | signOut
  | signIn (uid : String)
  | write (ref : DocumentReference) (data : Option Dictionary)
  | didGetDocuments (ok : Bool)
  | reloadData
  | didSelectCity (item page : ℕ)
  | didSelectSpot (owner : Owner) (item : ℕ)
  | openFavorites (page : ℕ)
  | city (page : ℕ) (e : CityPage.Event)
  | favorites (page : ℕ) (e : FavoritesPage.Event)
  | device (e : FavoriteButton.Event)

/-- No cell is on the screen by itself: cells ask for their items in events of their own. -/
def unseen (_ : ℕ) : Bool := false

def step (s : Firestore × Tabs) : Event → Option (Firestore × Tabs)
  | .signOut => some (s.1, { s.2 with device := { s.2.device with currentUser := none } })
  | .signIn uid => some (s.1, { s.2 with device := { s.2.device with currentUser := some uid } })
  | .write ref data => some (s.1.write ref data, s.2)
  | .didGetDocuments ok =>
    if s.2.listing then
      let snapshots := if ok then some (s.1.documents .cities) else none
      some (s.1, { s.2 with
        searchViewController := s.2.searchViewController.didGetDocuments snapshots
        listing := false })
    else none
  | .reloadData =>
    s.2.searchViewController.reloadData.map fun searchViewController =>
      (s.1, { s.2 with searchViewController })
  | .didSelectCity item page => (s.2.didSelectCity item page).map fun t => (s.1, t)
  | .didSelectSpot owner item => (s.2.pages.spotAt owner item).map fun _ => s
  | .openFavorites page => (s.2.openFavorites page).map fun t => (s.1, t)
  | .city page e =>
    (s.2.cityLoading page).bind fun loading =>
      (CityPage.step s.1 unseen loading e).map fun r => (s.1, s.2.setCityLoading page r)
  | .favorites page e =>
    (s.2.favoritesLoading page).bind fun loading =>
      (FavoritesPage.step s.1 loading e).map fun r => (s.1, s.2.setFavoritesLoading page r)
  | .device e =>
    (FavoriteButton.step (s.1, s.2.device) e).map fun r => (r.1, { s.2 with device := r.2 })

/-- Everything that one event can do. -/
inductive Step (s : Firestore × Tabs) : Event → Firestore × Tabs → Prop where
  | signOut : Step s .signOut
      (s.1, { s.2 with device := { s.2.device with currentUser := none } })
  | signIn {uid : String} : Step s (.signIn uid)
      (s.1, { s.2 with device := { s.2.device with currentUser := some uid } })
  | write {ref : DocumentReference} {data : Option Dictionary} :
      Step s (.write ref data) (s.1.write ref data, s.2)
  | didGetDocuments {ok : Bool} (hlisting : s.2.listing = true) :
      Step s (.didGetDocuments ok) (s.1, { s.2 with
        searchViewController := s.2.searchViewController.didGetDocuments
          (if ok then some (s.1.documents .cities) else none)
        listing := false })
  | reloadData {searchViewController : SearchViewController}
      (hreload : s.2.searchViewController.reloadData = some searchViewController) :
      Step s .reloadData (s.1, { s.2 with searchViewController })
  | noCity {item page : ℕ} (hitem : s.2.searchViewController.didSelectItemAt item = some none) :
      Step s (.didSelectCity item page) s
  | openCity {item page : ℕ} {cityEnum : CityEnum} {cityIds : List String}
      (hitem : s.2.searchViewController.didSelectItemAt item = some (some (cityEnum, cityIds)))
      (hfresh : s.2.cityLoads page = none) {refs : List DocumentReference}
      (hrefs : cityIds.map Collection.spots.document = refs.map some) :
      Step s (.didSelectCity item page) (s.1, s.2.setCityLoading page
        (CityPage.opened (CityPage.vc cityIds) s.2.device.hud s.2.device.currentUser refs))
  | didSelectSpot {owner : Owner} {item : ℕ} {spot : Spot}
      (hspot : s.2.pages.spotAt owner item = some spot) : Step s (.didSelectSpot owner item) s
  | openFavorites {page : ℕ} (hfresh : s.2.favoritesLoads page = none) :
      Step s (.openFavorites page) (s.1, s.2.setFavoritesLoading page
        (FavoritesPage.viewDidLoad s.2.device.hud s.2.device.currentUser))
  | city {page : ℕ} {e : CityPage.Event} {loading r : CityPage.Loading}
      (hloading : s.2.cityLoads page = some loading)
      (hstep : CityPage.Step s.1 unseen
        { loading with page := s.2.pages.spotsViewController page, hud := s.2.device.hud } e r) :
      Step s (.city page e) (s.1, s.2.setCityLoading page r)
  | favorites {page : ℕ} {e : FavoritesPage.Event} {loading r : FavoritesPage.Loading}
      (hloading : s.2.favoritesLoads page = some loading)
      (hstep : FavoritesPage.Step s.1
        { loading with
          page := s.2.pages.favoriteSpotsViewController page
          hud := s.2.device.hud } e r) :
      Step s (.favorites page e) (s.1, s.2.setFavoritesLoading page r)
  | device {e : FavoriteButton.Event} {db : Firestore} {d : FavoriteButton.Device}
      (hstep : FavoriteButton.Step (s.1, s.2.device) e (db, d)) :
      Step s (.device e) (db, { s.2 with device := d })

theorem step_cases {s t : Firestore × Tabs} {e : Event} (h : step s e = some t) : Step s e t := by
  cases e with
  | signOut =>
    obtain rfl := Option.some.inj h
    exact .signOut
  | signIn uid =>
    obtain rfl := Option.some.inj h
    exact .signIn
  | write ref data =>
    obtain rfl := Option.some.inj h
    exact .write
  | didGetDocuments ok =>
    cases hlisting : s.2.listing with
    | false => simp [step, hlisting] at h
    | true =>
      simp only [step, hlisting, if_true] at h
      obtain rfl := Option.some.inj h
      exact .didGetDocuments hlisting
  | reloadData =>
    obtain ⟨searchViewController, hreload, rfl⟩ := Option.map_eq_some_iff.mp h
    exact .reloadData hreload
  | didSelectCity item page =>
    obtain ⟨tabs, htabs, rfl⟩ := Option.map_eq_some_iff.mp h
    simp only [Tabs.didSelectCity] at htabs
    split at htabs
    · cases htabs
    · obtain rfl := Option.some.inj htabs
      exact .noCity ‹_›
    · split_ifs at htabs with hfresh
      obtain ⟨loading, hopen, rfl⟩ := Option.map_eq_some_iff.mp htabs
      obtain ⟨refs, hrefs, rfl⟩ := CityPage.getSpots_cases hopen
      exact .openCity ‹_› (by simpa using hfresh) hrefs
  | didSelectSpot owner item =>
    obtain ⟨spot, hspot, rfl⟩ := Option.map_eq_some_iff.mp h
    exact .didSelectSpot hspot
  | openFavorites page =>
    obtain ⟨tabs, htabs, rfl⟩ := Option.map_eq_some_iff.mp h
    simp only [Tabs.openFavorites] at htabs
    split_ifs at htabs with hfresh
    obtain rfl := Option.some.inj htabs
    exact .openFavorites (by simpa using hfresh)
  | city page e =>
    obtain ⟨loading, hloading, h⟩ := Option.bind_eq_some_iff.mp h
    obtain ⟨r, hr, rfl⟩ := Option.map_eq_some_iff.mp h
    obtain ⟨loading, hload, rfl⟩ := Option.map_eq_some_iff.mp hloading
    exact .city hload (CityPage.step_cases hr)
  | favorites page e =>
    obtain ⟨loading, hloading, h⟩ := Option.bind_eq_some_iff.mp h
    obtain ⟨r, hr, rfl⟩ := Option.map_eq_some_iff.mp h
    obtain ⟨loading, hload, rfl⟩ := Option.map_eq_some_iff.mp hloading
    exact .favorites hload (FavoritesPage.step_cases hr)
  | device e =>
    obtain ⟨⟨db, d⟩, hr, rfl⟩ := Option.map_eq_some_iff.mp h
    exact .device (FavoriteButton.step_cases hr)

end TaiwanSpots.Screens

/-! The pages fetch documents of Spots, and of collections below them, only. -/
namespace TaiwanSpots
open Runs

theorem CityPage.mem_spotFetches_of_step {db : Firestore} {visible : ℕ → Bool}
    {s t : CityPage.Loading} {e : CityPage.Event} (h : CityPage.Step db visible s e t)
    {ref : DocumentReference} (hmem : some ref ∈ t.spotFetches) : some ref ∈ s.spotFetches := by
  cases h with
  | lost | missing | arrived => exact (List.mem_or_eq_of_mem_set hmem).resolve_right nofun
  | userLost | unlisted | listed | notify => exact hmem

theorem FavoritesPage.mem_fetches_of_step {db : Firestore} {s t : FavoritesPage.Loading}
    {e : FavoritesPage.Event} (h : FavoritesPage.Step db s e t) {ref : DocumentReference}
    (hmem : .getDocument ref ∈ t.fetches) :
    .getDocument ref ∈ s.fetches ∨ ref.collection.root = .spots := by
  cases h with
  | unlisted => exact .inl hmem
  | listed _ _ _ hrefs =>
    rcases List.mem_append.mp hmem with hold | hnew
    · exact .inl hold
    · obtain ⟨ref', href, heq⟩ := List.mem_map.mp hnew
      obtain rfl := FavoritesPage.Fetch.getDocument.inj heq
      exact .inr (root_of_documents hrefs href)
  | missing | arrived | notify => exact .inl ((List.mem_or_eq_of_mem_set hmem).resolve_right nofun)

namespace Screens

structure Tabs.Fetching (s : Tabs) : Prop where
  cities : ∀ page loading, s.cityLoads page = some loading →
    ∀ ref, some ref ∈ loading.spotFetches → ref.collection.root = .spots
  favorites : ∀ page loading, s.favoritesLoads page = some loading →
    ∀ ref, .getDocument ref ∈ loading.fetches → ref.collection.root = .spots

theorem Tabs.Fetching.step {s t : Firestore × Tabs} {e : Event} (hs : s.2.Fetching)
    (h : Step s e t) : t.2.Fetching := by
  cases h with
  | signOut | signIn | write | didGetDocuments | reloadData | noCity | didSelectSpot | device =>
    exact ⟨hs.cities, hs.favorites⟩
  | openCity hitem hfresh hrefs =>
    refine ⟨forall_update_some hs.cities fun loading heq ref hmem => ?_, hs.favorites⟩
    obtain rfl := Option.some.inj heq
    obtain ⟨ref', hmem, heq⟩ := List.mem_map.mp hmem
    exact Option.some.inj heq ▸ root_of_documents hrefs hmem
  | openFavorites =>
    refine ⟨hs.cities, forall_update_some hs.favorites fun loading heq ref hmem => ?_⟩
    obtain rfl := Option.some.inj heq
    cases hmem
  | city hloading hstep =>
    refine ⟨forall_update_some hs.cities fun loading heq ref hmem => ?_, hs.favorites⟩
    obtain rfl := Option.some.inj heq
    exact hs.cities _ _ hloading ref (CityPage.mem_spotFetches_of_step hstep hmem)
  | favorites hloading hstep =>
    refine ⟨hs.cities, forall_update_some hs.favorites fun loading heq ref hmem => ?_⟩
    obtain rfl := Option.some.inj heq
    rcases FavoritesPage.mem_fetches_of_step hstep hmem with hold | hroot
    · exact hs.favorites _ _ hloading ref hold
    · exact hroot

end Screens
end TaiwanSpots
