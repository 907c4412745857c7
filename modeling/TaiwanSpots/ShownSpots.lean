import TaiwanSpots.AuthGate
import TaiwanSpots.LoadedSpots
import TaiwanSpots.MapListing

/-!
# Where the spots on the screens come from

The pages decode documents while rebuilds delete them and write them. A spot that is
decoded was encoded by a rebuild, from an entry of its download whose city it knows, and
the pages and the cells hand each other such spots only.
-/
namespace TaiwanSpots
open DocumentStore Runs

/-- The rebuild downloads the spot, and knows its city. -/
def Downloaded (o : Outcomes) (count : ℤ) (spot : Spot) : Prop :=
  ∃ spots, getTaiwanSpots count o.data = .completed spots ∧ spot ∈ spots ∧
    spot.cityEnum.isSome = true

/-! A property of spots that is kept in the database and on the screens. -/

/-- The spots that the rebuild writes have the property. -/
structure Rebuild.PostsOnly (P : Spot → Prop) (count : ℤ) (p : Rebuild) : Prop where
  count_eq : p.count = count
  posts : ∀ r ∈ p.inFlight, r.key.collection.root = .spots → ∀ data, r.value = some data →
    ∃ spot, P spot ∧ data = spot.dictionary

/-- The documents of Spots, and of the collections below them, are spots with the property. -/
def StoresOnly (P : Spot → Prop) (db : Firestore) : Prop :=
  ∀ ref data, ref.collection.root = .spots → db.lookup ref = some data →
    ∃ spot, P spot ∧ data = spot.dictionary

/-- The spots of the pages and of the cells have the property. -/
structure Pages.Only (P : Spot → Prop) (p : Pages) : Prop where
  city : ∀ page, ∀ spot ∈ (p.spotsViewController page).spots, P spot
  collection : ∀ page,
    ∀ spot ∈ (p.spotsViewController page).spotsCollectionViewController.spots, P spot
  favorites : ∀ page, ∀ spot ∈ (p.favoriteSpotsViewController page).favoriteSpots, P spot
  cell : ∀ c cell, p.cell c = some cell → P cell.spot

section
variable {P : Spot → Prop} {db : Firestore}

theorem StoresOnly.decoded (h : StoresOnly P db) {ref : DocumentReference} {data : Dictionary}
    {spot : Spot} (href : ref.collection.root = .spots) (hdoc : db.lookup ref = some data)
    (hspot : Spot.initFirestoreDictionary data = some spot) : P spot := by
  obtain ⟨spot', hP, rfl⟩ := h ref data href hdoc
  rw [Spot.initFirestoreDictionary_dictionary] at hspot
  exact Option.some.inj hspot ▸ hP

theorem StoresOnly.decodes (h : StoresOnly P db) : SpotsDecode db := by
  intro ref data href hdoc
  obtain ⟨spot, -, rfl⟩ := h ref data href hdoc
  rw [Spot.initFirestoreDictionary_dictionary]
  rfl

theorem StoresOnly.of_catalogue {db' : Firestore} (h : StoresOnly P db)
    (hdb : catalogue db' = catalogue db) : StoresOnly P db' := by
  intro ref data href hdoc
  rw [lookup_of_catalogue hdb (by simp [href])] at hdoc
  exact h ref data href hdoc

/-- A request that is carried out leaves a spot of its rebuild. -/
theorem StoresOnly.perform {fails : Label → Bool} {r : WriteRequest} (h : StoresOnly P db)
    (hr : r.key.collection.root = .spots → ∀ data, r.value = some data →
      ∃ spot, P spot ∧ data = spot.dictionary) : StoresOnly P (perform fails db r) := by
  intro ref data href hdoc
  rw [lookup_perform] at hdoc
  split_ifs at hdoc with hkey
  · exact hr (hkey.1 ▸ href) data hdoc
  · exact h ref data href hdoc

theorem step_postsOnly {o : Outcomes} {count : ℤ} {s t : Firestore × Rebuild} {e : Event}
    (hP : ∀ spot, Downloaded o count spot → P spot) (hdb : StoresOnly P s.1)
    (hs : s.2.PostsOnly P count) (h : step o s e = some t) :
    StoresOnly P t.1 ∧ t.2.PostsOnly P count := by
  rcases step_cases h with ⟨-, -, -, rfl⟩ | ⟨-, -, -, rfl⟩ | ⟨-, -, -, rfl⟩ | ⟨-, -, -, rfl⟩ |
      ⟨-, -, h⟩ | ⟨label, r, rest, -, he, rfl⟩ | ⟨-, -, h⟩
  · refine ⟨hdb, hs.count_eq, fun r hr _ data hvalue => ?_⟩
    rw [(key_of_mem_removeSpots hr).2] at hvalue
    cases hvalue
  · exact ⟨hdb, hs.count_eq, hs.posts⟩
  · refine ⟨hdb, hs.count_eq, fun r hr _ data hvalue => ?_⟩
    rw [(key_of_mem_removeCities hr).2] at hvalue
    cases hvalue
  · exact ⟨hdb, hs.count_eq, hs.posts⟩
  · rw [hs.count_eq] at h
    rcases h with ⟨spots, hd, rfl⟩ | ⟨-, rfl⟩ | ⟨-, rfl⟩
    · refine ⟨hdb, hs.count_eq, fun r hr hk data hvalue => ?_⟩
      rcases mem_updataSpotsAPI hr with ⟨spot, index, ref, hmem, hcity, href, rfl⟩ | ⟨-, c, -, rfl⟩
      · exact ⟨spot, hP spot ⟨spots, hd, (List.mem_zipIdx hmem).2.2 ▸ List.getElem_mem _, hcity⟩,
          (Option.some.inj hvalue).symm⟩
      · cases hk
    · exact ⟨hdb, hs.count_eq, hs.posts⟩
    · exact ⟨hdb, hs.count_eq, hs.posts⟩
  · obtain ⟨hr, hmem⟩ := mem_of_extract he
    exact ⟨hdb.perform (hs.posts r hr), hs.count_eq,
      fun r' hr' => hs.posts r' ((hmem r').mpr (.inr hr'))⟩
  · rcases h with ⟨-, rfl⟩ | ⟨-, rfl⟩ | ⟨-, rfl⟩ <;> exact ⟨hdb, hs.count_eq, hs.posts⟩

end

namespace Pages
variable {P : Spot → Prop} {p : Pages}

theorem Only.updateCityPage (h : p.Only P) {page : ℕ} {controller : SpotsViewController}
    (hcity : ∀ spot ∈ controller.spots, P spot)
    (hcollection : ∀ spot ∈ controller.spotsCollectionViewController.spots, P spot) :
    (p.updateCityPage page controller).Only P where
  city := (Function.forall_update_iff _ fun _ c => ∀ spot ∈ SpotsViewController.spots c, P spot).mpr
    ⟨hcity, fun page' _ => h.city page'⟩
  collection := (Function.forall_update_iff _ fun _ c =>
      ∀ spot ∈ (SpotsViewController.spotsCollectionViewController c).spots, P spot).mpr
    ⟨hcollection, fun page' _ => h.collection page'⟩
  favorites := h.favorites
  cell := h.cell

theorem Only.updateFavoritesPage (h : p.Only P) {page : ℕ}
    {controller : FavoriteSpotsViewController}
    (hfavorites : ∀ spot ∈ controller.favoriteSpots, P spot) :
    (p.updateFavoritesPage page controller).Only P where
  city := h.city
  collection := h.collection
  favorites := (Function.forall_update_iff _ fun _ c =>
      ∀ spot ∈ FavoriteSpotsViewController.favoriteSpots c, P spot).mpr
    ⟨hfavorites, fun page' _ => h.favorites page'⟩
  cell := h.cell

theorem Only.updateCell (h : p.Only P) {c : ℕ} {cell : Option SpotCollectionViewCell}
    (hcell : ∀ cell' ∈ cell, P cell'.spot) :
    ({ p with cell := Function.update p.cell c cell } : Pages).Only P where
  city := h.city
  collection := h.collection
  favorites := h.favorites
  cell := forall_update_some h.cell hcell

theorem Only.setSelected (h : p.Only P) (c : ℕ) (isSelected : Bool) :
    (p.setSelected c isSelected).Only P := by
  refine h.updateCell fun cell' hcell => ?_
  obtain ⟨cell, hold, rfl⟩ := Option.map_eq_some_iff.mp hcell
  exact h.cell c cell hold

/-- A cell is given a spot of its page. -/
theorem Only.spotAt (h : p.Only P) {owner : Owner} {item : ℕ} {spot : Spot}
    (hspot : p.spotAt owner item = some spot) : P spot := by
  cases owner with
  | city page =>
    simp only [Pages.spotAt] at hspot
    split_ifs at hspot
    exact h.collection page spot (List.mem_of_getElem? hspot)
  | favorites page =>
    simp only [Pages.spotAt] at hspot
    split_ifs at hspot
    exact h.favorites page spot (List.mem_of_getElem? hspot)

theorem Only.setCollectionFavorites (h : p.Only P) (page : ℕ) (ids : List String) :
    (p.setCollectionFavorites page ids).Only P :=
  h.updateCityPage (h.city page) (h.collection page)

theorem Only.setFavorites (h : p.Only P) (page : ℕ) (ids : List String) :
    (p.setFavorites page ids).Only P :=
  h.updateFavoritesPage (h.favorites page)

theorem Only.removeFavoriteSpot (h : p.Only P) (page : ℕ) (spot : Spot) :
    (p.removeFavoriteSpot page spot).Only P :=
  h.updateFavoritesPage fun other hmem => h.favorites page other (List.mem_of_mem_eraseP hmem)

theorem Only.reloadFavorites (h : p.Only P) (page : ℕ) : (p.reloadFavorites page).Only P :=
  h.updateFavoritesPage (h.favorites page)

end Pages

namespace FavoriteButton
variable {P : Spot → Prop} {p : Pages}

theorem didGetDocument_only (h : p.Only P) (adding : Bool) (cell : SpotCollectionViewCell)
    (reply : Reply) : (didGetDocument p adding cell reply).1.Only P := by
  unfold didGetDocument
  split
  · exact h
  · exact h
  · split
    · unfold assignFavorites
      split
      · exact h.setCollectionFavorites _ _
      · split_ifs
        · exact h
        · exact h.setFavorites _ _
    · exact h

theorem didUpdateData_only (h : p.Only P) (hud : HUD) (adding : Bool)
    (cell : SpotCollectionViewCell) (ok : Bool) (ids : Option (List String)) :
    (didUpdateData p hud adding cell ok ids).1.Only P := by
  unfold didUpdateData
  split_ifs
  · exact h
  · split
    · exact h
    · exact (h.setFavorites _ _).removeFavoriteSpot _ _
  · split
    · exact h
    · exact h

theorem reloadData_only (h : p.Only P) (hud : HUD) (cell : SpotCollectionViewCell) :
    (reloadData p hud cell).1.Only P := by
  unfold reloadData
  split
  · exact h
  · exact h.reloadFavorites _

/-- A heart hands on the spots that are there. -/
theorem step_only {s t : Firestore × Device} {e : Event} (hs : s.2.pages.Only P)
    (h : Step s e t) : t.2.pages.Only P := by
  cases h with
  | cellForItemAt hspot howner =>
    refine hs.updateCell fun cell' hcell => ?_
    obtain rfl := Option.some.inj hcell
    exact hs.spotAt hspot
  | signedOut hcell huser => exact hs.setSelected _ _
  | signedIn hcell huser => exact hs.setSelected _ _
  | getDocument htap hstage => exact hs
  | didGetDocument htap hstage hcell => exact didGetDocument_only hs _ _ _
  | updateData htap hstage => exact hs
  | didUpdateData htap hstage hcell => exact didUpdateData_only hs _ _ _ _ _
  | reloadData htap hstage hcell => exact reloadData_only hs _ _

end FavoriteButton

namespace Screens
variable {P : Spot → Prop}

/-- A page adds what it decodes, and nothing else adds a spot. -/
theorem step_only {s t : Firestore × Tabs} {e : Event} (hdb : StoresOnly P s.1)
    (hs : s.2.pages.Only P) (hfetching : s.2.Fetching) (h : Step s e t) : t.2.pages.Only P := by
  cases h with
  | signOut | signIn | write | didGetDocuments | reloadData | noCity | didSelectSpot => exact hs
  | openCity hitem hfresh =>
    exact hs.updateCityPage nofun nofun
  | openFavorites hfresh => exact hs.updateFavoritesPage nofun
  | @city page e loading r hloading hstep =>
    cases hstep with
    | lost | missing | userLost | unlisted | listed | notify =>
      exact hs.updateCityPage (hs.city page) (hs.collection page)
    | arrived hfetch hdoc hspot =>
      have href := hfetching.cities page loading hloading _ (List.mem_of_getElem? hfetch)
      have hnew := forall_mem_concat (hs.city page) (hdb.decoded href hdoc hspot)
      exact hs.updateCityPage hnew hnew
  | @favorites page e loading r hloading hstep =>
    cases hstep with
    | unlisted | listed | missing | notify => exact hs.updateFavoritesPage (hs.favorites page)
    | arrived hfetch hdoc hspot =>
      have href := hfetching.favorites page loading hloading _ (List.mem_of_getElem? hfetch)
      exact hs.updateFavoritesPage
        (forall_mem_concat (hs.favorites page) (hdb.decoded href hdoc hspot))
  | device hstep => exact FavoriteButton.step_only hs hstep

/-- A store whose documents decode answers every fetch of a page. -/
theorem isSome_step_fetch {db : Firestore} {s : Tabs} (hdb : SpotsDecode db) (hs : s.Fetching)
    (page i : ℕ) (ok : Bool) :
    (∀ loading, s.cityLoads page = some loading → loading.Waits i →
      (step (db, s) (.city page (.didGetSpot i ok))).isSome = true) ∧
    ∀ loading, s.favoritesLoads page = some loading → loading.Waits i →
      (step (db, s) (.favorites page (.didGetSpot i ok))).isSome = true := by
  constructor
  · intro loading hloading hwaits
    have hstep := @CityPage.isSome_step_didGetSpot db unseen { loading with
      page := s.pages.spotsViewController page, hud := s.device.hud } i hdb
      (hs.cities page loading hloading) hwaits ok
    simpa [step, Tabs.cityLoading, hloading] using hstep
  · intro loading hloading hwaits
    have hstep := @FavoritesPage.isSome_step_didGetSpot db { loading with
      page := s.pages.favoriteSpotsViewController page, hud := s.device.hud } i hdb
      (hs.favorites page loading hloading) hwaits ok
    simpa [step, Tabs.favoritesLoading, hloading] using hstep

end Screens

namespace Client
variable {P : Spot → Prop}

theorem launch_only (currentUser : Option String) : (launch currentUser).tabs.pages.Only P where
  city _ _ := nofun
  collection _ _ := nofun
  favorites _ _ := nofun
  cell _ _ := nofun

theorem launch_fetching (currentUser : Option String) : (launch currentUser).tabs.Fetching :=
  ⟨nofun, nofun⟩

theorem app_fetching {characters : String → ℕ} {s t : Firestore × App} {e : Event}
    (happ : s.2.tabs.Fetching) (h : step characters s e = some t) : t.2.tabs.Fetching := by
  cases step_cases h with
  | tabs htabs hstep =>
    have htabs := happ.step hstep
    exact ⟨htabs.cities, htabs.favorites⟩
  | invalidEmail | stepOne | shortPassword | stepTwo | registration | loginButtonDidTap
  | notSignedIn | didSignIn | profile | nothingPicked | didFinishPickingMedia | didPutData
  | didDownloadURL | noURL | updateData => exact ⟨happ.cities, happ.favorites⟩

theorem app_only {κ : Type*} {characters : String → ℕ} {k : κ} {db : Firestore} {app : App}
    {e : Event} {t : Firestore × App} (hdb : StoresOnly P db)
    (happ : app.tabs.pages.Only P ∧ app.tabs.Fetching)
    (h : appProcess characters k db app e = some t) :
    StoresOnly P t.1 ∧ t.2.tabs.pages.Only P ∧ t.2.tabs.Fetching := by
  simp only [appProcess] at h
  split_ifs at h with he
  refine ⟨hdb.of_catalogue (catalogue_of_app he h), ?_, app_fetching happ.2 h⟩
  cases step_cases h with
  | tabs htabs hstep => exact Screens.step_only hdb happ.1 happ.2 hstep
  | invalidEmail | stepOne | shortPassword | stepTwo | registration | loginButtonDidTap
  | notSignedIn | didSignIn | profile | nothingPicked | didFinishPickingMedia | didPutData
  | didDownloadURL | noURL | updateData => exact happ.1

section
variable {ι κ : Type*} [DecidableEq ι] [DecidableEq κ] {o : ι → Outcomes}
  {characters : String → ℕ} {user : ι → User} {count : ι → ℤ}
  {s t : Groups Firestore ι Rebuild κ App} {es : List ((ι × TaiwanSpots.Event) ⊕ (κ × Event))}

/-- Rebuilds and apps, from a database without documents in Spots or below: whatever is
deleted and written while pages load, every spot on a page or in a cell is an entry of a
download, with a city that is known, and no fetch of a page can be answered with a document
that traps. -/
theorem shown_spots_downloaded {currentUser : κ → Option String}
    (hempty : ∀ ref : DocumentReference, ref.collection.root = .spots → s.store.lookup ref = none)
    (hp : ∀ i, apiButtonDidTap (user i) (count i) = some (s.first i))
    (hlaunch : ∀ k, s.second k = launch (currentUser k))
    (hr : run (system o characters) s es = some t) (k : κ) :
    (t.second k).tabs.pages.Only (fun spot => ∃ i, Downloaded (o i) (count i) spot) ∧
    ∀ page i ok,
      (∀ loading, (t.second k).tabs.cityLoads page = some loading → loading.Waits i →
        (step characters (t.store, t.second k) (.tabs (.city page (.didGetSpot i ok)))).isSome =
          true) ∧
      ∀ loading, (t.second k).tabs.favoritesLoads page = some loading → loading.Waits i →
        (step characters (t.store, t.second k)
          (.tabs (.favorites page (.didGetSpot i ok)))).isSome = true := by
  set P : Spot → Prop := fun spot => ∃ i, Downloaded (o i) (count i) spot with hP
  have hstart : s.Sound (StoresOnly P) (fun i p => p.PostsOnly P (count i))
      (fun _ app => app.tabs.pages.Only P ∧ app.tabs.Fetching) := by
    refine ⟨fun ref data href hdoc => ?_, fun i => ?_, fun k => ?_⟩
    · rw [hempty ref href] at hdoc
      cases hdoc
    · rw [start_of_didTap (hp i)]
      exact ⟨rfl, nofun⟩
    · rw [hlaunch k]
      exact ⟨launch_only _, launch_fetching _⟩
  have hend : t.Sound (StoresOnly P) (fun i p => p.PostsOnly P (count i))
      (fun _ app => app.tabs.pages.Only P ∧ app.tabs.Fetching) :=
    sound_of_run (fun i _ _ _ _ hdb hs h => step_postsOnly (fun spot hspot => ⟨i, hspot⟩) hdb hs h)
      (fun _ _ _ _ _ hdb happ h => app_only hdb happ h) hstart hr
  obtain ⟨honly, hfetching⟩ := hend.second k
  refine ⟨honly, fun page i ok => ?_⟩
  obtain ⟨hcity, hfavorites⟩ := Screens.isSome_step_fetch hend.store.decodes hfetching page i ok
  refine ⟨fun loading hloading hwaits => ?_, fun loading hloading hwaits => ?_⟩
  · simpa [step, ofTabs] using hcity loading hloading hwaits
  · simpa [step, ofTabs] using hfavorites loading hloading hwaits

end

/-- The page of a city loads the spot that the rebuild has just written. -/
def sampleLoad : List ((Unit × TaiwanSpots.Event) ⊕ (Unit × Event)) :=
  [.inl ((), .getDocuments), .inl ((), .notify), .inl ((), .getDocuments), .inl ((), .notify),
    .inl ((), .dataTask), .inl ((), .acknowledge (.setCity .TTH)),
    .inl ((), .acknowledge (.setSpot 0)), .inr ((), .tabs (.didGetDocuments true)),
    .inr ((), .tabs .reloadData), .inr ((), .tabs (.didSelectCity 0 0)),
    .inr ((), .tabs (.city 0 (.didGetSpot 0 true)))]

theorem shown_spots_downloaded_sample :
    ∃ t, run (system (fun _ => sampleOutcomes []) String.length)
        ⟨∅, fun _ => ⟨1, .removeSpots, ⟨0, 0⟩, []⟩, fun _ => launch none⟩ sampleLoad = some t ∧
      ∃ spot ∈ ((t.second ()).tabs.pages.spotsViewController 0).spots,
        Downloaded (sampleOutcomes []) 1 spot := by
  refine ⟨_, rfl, _, List.mem_singleton_self _, ?_⟩
  have h := @shown_spots_downloaded Unit Unit _ _ (fun _ => sampleOutcomes []) String.length
    (fun _ => sampleAdmin) (fun _ => 1) ⟨∅, fun _ => ⟨1, .removeSpots, ⟨0, 0⟩, []⟩,
      fun _ => launch none⟩ _ sampleLoad (fun _ => none) (fun _ _ => rfl) (fun _ => rfl)
    (fun _ => rfl) rfl ()
  obtain ⟨_, hspot⟩ := h.1.city 0 _ (List.mem_singleton_self _)
  exact hspot

end Client
end TaiwanSpots
