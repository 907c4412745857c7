import TaiwanSpots.Screens

/-!
# The items that the collection views ask for

A collection view asks for the items below the count of its last reload, at any
moment between two blocks. The lists of the cities and of a city's spots only
grow before a reload is due. A page of the favourites gives up a spot in the
callback of a removal and is reloaded in a block of its own, so that a page whose
spots have all been counted asks for one too many in between.
-/
namespace TaiwanSpots.Screens
open Runs FavoriteButton

/-- Every item below the count is in the array. -/
def Covers {α : Type*} (numberOfItems : ℕ) (array : List α) : Prop :=
  ∀ item < numberOfItems, item < array.length

theorem covers_iff {α : Type*} {numberOfItems : ℕ} {array : List α} :
    Covers numberOfItems array ↔ numberOfItems ≤ array.length := by
  constructor
  · intro h
    by_contra hlt
    have hlast := h (numberOfItems - 1) (by omega)
    omega
  · intro h item hitem
    omega

theorem Covers.append {α : Type*} {numberOfItems : ℕ} {array : List α}
    (h : Covers numberOfItems array) (more : List α) : Covers numberOfItems (array ++ more) := by
  rw [covers_iff, List.length_append]
  have hle := covers_iff.mp h
  omega

theorem covers_length {α : Type*} (array : List α) : Covers array.length array :=
  fun _ h => h

/-- An element that is there is taken from the array. -/
theorem covers_eraseP {α : Type*} {numberOfItems : ℕ} {array : List α} {p : α → Bool}
    (h : Covers numberOfItems array) :
    Covers numberOfItems (array.eraseP p) ↔
      (array.any p = true → numberOfItems < array.length) := by
  simp only [covers_iff, List.length_eraseP] at h ⊢
  split_ifs with hany
  · have hpos : 0 < array.length := by
      obtain ⟨a, hmem, -⟩ := List.any_eq_true.mp hany
      exact List.length_pos_of_mem hmem
    simp only [hany, forall_const]
    omega
  · exact iff_of_true h fun hyes => absurd hyes hany

/-- What the two kinds of spot pages are asked for is there. -/
structure PagesInRange (p : Pages) : Prop where
  city : ∀ page, Covers
    (p.spotsViewController page).spotsCollectionViewController.numberOfItems
    (p.spotsViewController page).spotsCollectionViewController.spots
  favorites : ∀ page, Covers (p.favoriteSpotsViewController page).numberOfItems
    (p.favoriteSpotsViewController page).favoriteSpots

/-- What the three kinds of page are asked for is there. -/
structure InRange (s : Firestore × Tabs) : Prop where
  cities : Covers s.2.searchViewController.numberOfItems s.2.searchViewController.cityArray
  pages : PagesInRange s.2.pages

theorem PagesInRange.updateCityPage {p : Pages} (h : PagesInRange p) {page : ℕ}
    {controller : SpotsViewController}
    (hc : Covers controller.spotsCollectionViewController.numberOfItems
      controller.spotsCollectionViewController.spots) :
    PagesInRange (p.updateCityPage page controller) := by
  refine ⟨fun page' => ?_, h.favorites⟩
  by_cases hpage : page' = page
  · subst hpage
    simpa [Pages.updateCityPage] using hc
  · simpa [Pages.updateCityPage, Function.update_of_ne hpage] using h.city page'

theorem pagesInRange_updateFavoritesPage {p : Pages} (h : PagesInRange p) {page : ℕ}
    {controller : FavoriteSpotsViewController} :
    PagesInRange (p.updateFavoritesPage page controller) ↔
      Covers controller.numberOfItems controller.favoriteSpots := by
  constructor
  · intro hp
    simpa [Pages.updateFavoritesPage] using hp.favorites page
  · intro hc
    refine ⟨h.city, fun page' => ?_⟩
    by_cases hpage : page' = page
    · subst hpage
      simpa [Pages.updateFavoritesPage] using hc
    · simpa [Pages.updateFavoritesPage, Function.update_of_ne hpage] using h.favorites page'

/-- An assignment of ids moves no spot. -/
theorem PagesInRange.setFavorites {p : Pages} (h : PagesInRange p) (page : ℕ)
    (ids : List String) : PagesInRange (p.setFavorites page ids) :=
  (pagesInRange_updateFavoritesPage h).mpr (h.favorites page)

theorem PagesInRange.assignFavorites {p : Pages} (h : PagesInRange p) (adding : Bool)
    (owner : Owner) (ids : List String) : PagesInRange (assignFavorites p adding owner ids) := by
  cases owner with
  | city page => exact h.updateCityPage (h.city page)
  | favorites page =>
    cases adding with
    | true => exact h
    | false => exact h.setFavorites page ids

theorem PagesInRange.didGetDocument {p : Pages} (h : PagesInRange p) (adding : Bool)
    (cell : SpotCollectionViewCell) (reply : Reply) :
    PagesInRange (didGetDocument p adding cell reply).1 := by
  rcases reply with _ | _ | dictionary
  · exact h
  · exact h
  · simp only [FavoriteButton.didGetDocument]
    split
    · exact h.assignFavorites ..
    · exact h

theorem PagesInRange.reloadData {p : Pages} (h : PagesInRange p) (hud : HUD)
    (cell : SpotCollectionViewCell) : PagesInRange (reloadData p hud cell).1 := by
  unfold FavoriteButton.reloadData
  split
  · exact h
  · exact (pagesInRange_updateFavoritesPage h).mpr (covers_length _)

theorem any_equal {p : Pages} {page : ℕ} {spot : Spot} :
    ((p.favoriteSpotsViewController page).favoriteSpots.any spot.equal = true) ↔
      spot.id ∈ p.favoriteIDs page := by
  simp [Pages.favoriteIDs, Spot.equal, eq_comm (a := spot.id)]

/-- The callback of a write may take a spot that has been counted. -/
theorem pagesInRange_didUpdateData {p : Pages} (h : PagesInRange p) (hud : HUD) (adding : Bool)
    (cell : SpotCollectionViewCell) (ok : Bool) (ids : Option (List String)) :
    PagesInRange (didUpdateData p hud adding cell ok ids).1 ↔
      (adding = false → ok = true → ∀ page, cell.owner = .favorites page →
        cell.spot.id ∈ p.favoriteIDs page →
        (p.favoriteSpotsViewController page).numberOfItems <
          (p.favoriteSpotsViewController page).favoriteSpots.length) := by
  cases adding with
  | true => exact iff_of_true h fun hadding => absurd hadding (by decide)
  | false =>
    cases howner : cell.owner with
    | city page =>
      simp only [didUpdateData, howner, Bool.false_eq_true, if_false]
      exact iff_of_true h fun _ _ _ howner' => absurd howner' (by simp)
    | favorites page =>
      cases ok with
      | false =>
        simp only [didUpdateData, howner, Bool.false_eq_true, if_false]
        exact iff_of_true h fun _ hok => absurd hok (by decide)
      | true =>
        simp only [didUpdateData, howner, Bool.false_eq_true, if_false, if_true, forall_const,
          Owner.favorites.injEq, forall_eq']
        rw [Pages.removeFavoriteSpot, pagesInRange_updateFavoritesPage (h.setFavorites ..)]
        simp only [Pages.setFavorites, Pages.updateFavoritesPage, Function.update_self]
        rw [covers_eraseP (h.favorites page), any_equal]

/-- The callback of a removal that has succeeded finds a page with a spot that has not
been counted, if it is to take a spot from a page of the favourites. -/
def KeepsRange (s : Firestore × Tabs) : Event → Prop
  | .device (.didUpdateData i) =>
    ∀ tap ids cell page, s.2.device.taps[i]? = some tap → tap.adding = false →
      tap.stage = .didUpdateData true ids → s.2.pages.cell tap.cell = some cell →
      cell.owner = .favorites page → cell.spot.id ∈ s.2.pages.favoriteIDs page →
      (s.2.pages.favoriteSpotsViewController page).numberOfItems <
        (s.2.pages.favoriteSpotsViewController page).favoriteSpots.length
  | _ => True

/-- Between the answers of its fetches, a page of a city counts all that it has. -/
theorem PagesInRange.city_step {p : Pages} (h : PagesInRange p) {page : ℕ} {db : Firestore}
    {loading r : CityPage.Loading} {e : CityPage.Event}
    (hpage : loading.page = p.spotsViewController page)
    (hstep : CityPage.Step db unseen loading e r) :
    PagesInRange (p.updateCityPage page r.page) := by
  apply h.updateCityPage
  cases hstep with
  | arrived hfetch hdoc hspot => exact covers_length _
  | lost | missing | userLost | unlisted | listed | notify => exact hpage ▸ h.city page

theorem PagesInRange.favorites_step {p : Pages} (h : PagesInRange p) {page : ℕ} {db : Firestore}
    {loading r : FavoritesPage.Loading} {e : FavoritesPage.Event}
    (hpage : loading.page = p.favoriteSpotsViewController page)
    (hstep : FavoritesPage.Step db loading e r) :
    PagesInRange (p.updateFavoritesPage page r.page) := by
  rw [pagesInRange_updateFavoritesPage h]
  have hold : Covers loading.page.numberOfItems loading.page.favoriteSpots :=
    hpage ▸ h.favorites page
  cases hstep with
  | arrived hfetch hdoc hspot => exact hold.append _
  | notify hfetch => exact covers_length _
  | unlisted | listed | missing => exact hold

/-- One event keeps every page in range exactly when it is guarded. -/
theorem step_inRange_iff {s t : Firestore × Tabs} {e : Event} (hs : InRange s)
    (h : step s e = some t) : InRange t ↔ KeepsRange s e := by
  cases step_cases h with
  | signOut => exact iff_of_true ⟨hs.cities, hs.pages⟩ trivial
  | signIn => exact iff_of_true ⟨hs.cities, hs.pages⟩ trivial
  | write => exact iff_of_true ⟨hs.cities, hs.pages⟩ trivial
  | @didGetDocuments ok hlisting =>
    cases ok with
    | true => exact iff_of_true ⟨hs.cities.append _, hs.pages⟩ trivial
    | false => exact iff_of_true ⟨hs.cities, hs.pages⟩ trivial
  | reloadData hreload =>
    unfold SearchViewController.reloadData at hreload
    split_ifs at hreload with hqueued
    obtain rfl := Option.some.inj hreload
    exact iff_of_true ⟨covers_length _, hs.pages⟩ trivial
  | noCity hitem => exact iff_of_true hs trivial
  | openCity hitem hfresh =>
    exact iff_of_true ⟨hs.cities, hs.pages.updateCityPage (covers_length [])⟩ trivial
  | didSelectSpot hspot => exact iff_of_true hs trivial
  | openFavorites hfresh =>
    exact iff_of_true
      ⟨hs.cities, (pagesInRange_updateFavoritesPage hs.pages).mpr (covers_length [])⟩ trivial
  | city hloading hstep => exact iff_of_true ⟨hs.cities, hs.pages.city_step rfl hstep⟩ trivial
  | favorites hloading hstep =>
    exact iff_of_true ⟨hs.cities, hs.pages.favorites_step rfl hstep⟩ trivial
  | device hstep =>
    cases hstep with
    | cellForItemAt hspot howner =>
      exact iff_of_true ⟨hs.cities, hs.pages.city, hs.pages.favorites⟩ trivial
    | signedOut hcell huser =>
      exact iff_of_true ⟨hs.cities, hs.pages.city, hs.pages.favorites⟩ trivial
    | signedIn hcell huser =>
      exact iff_of_true ⟨hs.cities, hs.pages.city, hs.pages.favorites⟩ trivial
    | getDocument htap hstage => exact iff_of_true ⟨hs.cities, hs.pages⟩ trivial
    | didGetDocument htap hstage hcell =>
      exact iff_of_true ⟨hs.cities, hs.pages.didGetDocument ..⟩ trivial
    | updateData htap hstage => exact iff_of_true ⟨hs.cities, hs.pages⟩ trivial
    | @didUpdateData i tap ok ids cell htap hstage hcell =>
      have hkeeps := pagesInRange_didUpdateData hs.pages s.2.device.hud tap.adding cell ok ids
      constructor
      · rintro ⟨-, hpages⟩ tap' ids' cell' page htap' hadding hstage' hcell' howner hmem
        obtain rfl : tap = tap' := Option.some.inj (htap.symm.trans htap')
        obtain rfl : cell = cell' := Option.some.inj (hcell.symm.trans hcell')
        obtain ⟨rfl, -⟩ := Stage.didUpdateData.inj (hstage.symm.trans hstage')
        exact hkeeps.mp hpages hadding rfl page howner hmem
      · intro hguard
        refine ⟨hs.cities, hkeeps.mpr fun hadding hok page howner hmem => ?_⟩
        subst hok
        exact hguard tap ids cell page htap hadding hstage hcell howner hmem
    | reloadData htap hstage hcell =>
      exact iff_of_true ⟨hs.cities, hs.pages.reloadData ..⟩ trivial

theorem inRange_launch (db : Firestore) (currentUser : Option String) :
    InRange (db, launch currentUser) :=
  ⟨covers_length [], fun _ => covers_length [], fun _ => covers_length []⟩

/-- Over every interleaving of the pages, no page is asked for an item that is not
there exactly when every event keeps its range. -/
theorem in_range_iff {db : Firestore} {currentUser : Option String} {es : List Event}
    {t : Firestore × Tabs} (hr : run step (db, launch currentUser) es = some t) :
    Always step InRange (db, launch currentUser) es ↔
      Along step KeepsRange (db, launch currentUser) es :=
  always_iff_along (I := fun _ => True) (fun _ _ _ _ _ => trivial)
    (fun _ _ _ _ hs h => step_inRange_iff hs h) trivial (inRange_launch db currentUser) hr

/-- The account `u` removes the spot that its page of the favourites has loaded first. -/
def sampleTap : List Event :=
  [.openFavorites 0, .favorites 0 (.didGetUser true), .favorites 0 (.didGetSpot 0 true),
    .favorites 0 (.notify 0), .device (.cellForItemAt 0 (.favorites 0) 0),
    .device (.favoriteButtonDidTap 0), .device (.getDocument 0 true),
    .device (.didGetDocument 0), .device (.updateData 0 true)]

/-- It has two favourites. -/
def sampleFavorites : Firestore :=
  AList.insert (userRef "u") (favoriteData (some ["a", "b"])) CityPage.sampleStore

/-- The other one arrives, and is not counted, before the first one goes. -/
def sampleArrival : List Event := sampleTap ++ [.favorites 0 (.didGetSpot 1 true)]

theorem along_sampleArrival : Along step KeepsRange (sampleFavorites, launch (some "u"))
    (sampleArrival ++ [.device (.didUpdateData 0)]) := by
  refine along_concat.mpr ⟨?_, fun m hm tap ids cell page htap _ _ hcell howner _ => ?_⟩
  · exact along_step trivial rfl <| along_step trivial rfl <| along_step trivial rfl <|
      along_step trivial rfl <| along_step trivial rfl <| along_step trivial rfl <|
      along_step trivial rfl <| along_step trivial rfl <| along_step trivial rfl <|
      along_step trivial rfl trivial
  · have hshown : ((run step (sampleFavorites, launch (some "u")) sampleArrival).bind fun m =>
        m.2.device.taps[0]?.bind fun tap => (m.2.pages.cell tap.cell).map fun cell =>
          cell.owner) = some (.favorites 0) := by decide
    have hlate : ((run step (sampleFavorites, launch (some "u")) sampleArrival).map fun m =>
        ((m.2.pages.favoriteSpotsViewController 0).numberOfItems,
          (m.2.pages.favoriteSpotsViewController 0).favoriteSpots.length)) = some (1, 2) := by
      decide
    rw [hm] at hshown hlate
    simp only [Option.bind_some, htap, hcell, Option.map_some, Option.some.injEq, howner,
      Owner.favorites.injEq] at hshown
    obtain ⟨hitems, hspots⟩ := Prod.mk.inj (Option.some.inj hlate)
    rw [hshown, hitems, hspots]
    exact Nat.one_lt_two

theorem in_range_iff_sample :
    ∃ t, run step (sampleFavorites, launch (some "u"))
        (sampleArrival ++ [.device (.didUpdateData 0)]) = some t ∧
      Always step InRange (sampleFavorites, launch (some "u"))
        (sampleArrival ++ [.device (.didUpdateData 0)]) :=
  ⟨_, rfl, (@in_range_iff sampleFavorites (some "u") _ _ rfl).mpr along_sampleArrival⟩

/-- Before the queued reload, the page has an item to ask for and no spot. -/
theorem removal_leaves_range :
    ∃ es t, run step (CityPage.sampleStore, launch (some "u")) es = some t ∧
      0 < (t.2.pages.favoriteSpotsViewController 0).numberOfItems ∧
      (t.2.pages.favoriteSpotsViewController 0).favoriteSpots.length = 0 ∧
      ¬ Always step InRange (CityPage.sampleStore, launch (some "u")) es := by
  refine ⟨sampleTap ++ [.device (.didUpdateData 0)], _, rfl, by decide, rfl, fun h => ?_⟩
  have hall := (((((((((h.2 _ rfl).2 _ rfl).2 _ rfl).2 _ rfl).2 _ rfl).2 _ rfl).2 _ rfl).2 _
    rfl).2 _ rfl).2 _ rfl
  exact absurd (hall.head.pages.favorites 0 0 (by decide)) (by decide)

end TaiwanSpots.Screens
