import TaiwanSpots.Screens

/-!
# A page of a city that outlives its session

The page of a city fetches the favourites of the account that opens it, once, and
keeps them for as long as it is open. The hearts of its cells come from these
favourites whoever is signed in. Two runs that differ in the favourites of one
account go through the same pages, spots and cells, and the hearts tell them
apart by what the page has been sent.
-/
namespace TaiwanSpots.Screens
open Runs

/-- The page of a city without the list that no cell reads. -/
def plain (page : SpotsViewController) : SpotsViewController :=
  { page with
    spotsCollectionViewController := { page.spotsCollectionViewController with
      favoriteSpotsIDs := [] } }

theorem plain_setCollectionFavorites (p : Pages) (page : ℕ) (ids : List String) (page' : ℕ) :
    plain ((p.setCollectionFavorites page ids).spotsViewController page') =
      plain (p.spotsViewController page') := by
  by_cases hpage : page' = page
  · subst hpage
    simp [Pages.setCollectionFavorites, Pages.updateCityPage, plain]
  · simp [Pages.setCollectionFavorites, Pages.updateCityPage, Function.update_of_ne hpage]

theorem plain_didGetDocument (p : Pages) (adding : Bool) (cell : SpotCollectionViewCell)
    (reply : Reply) (page : ℕ) :
    plain ((FavoriteButton.didGetDocument p adding cell reply).1.spotsViewController page) =
      plain (p.spotsViewController page) := by
  rcases reply with _ | _ | dictionary
  · rfl
  · rfl
  · simp only [FavoriteButton.didGetDocument]
    split
    · unfold FavoriteButton.assignFavorites
      split
      · exact plain_setCollectionFavorites ..
      · split_ifs <;> rfl
    · rfl

theorem spotsViewController_didUpdateData (p : Pages) (hud : HUD) (adding : Bool)
    (cell : SpotCollectionViewCell) (ok : Bool) (ids : Option (List String)) :
    (FavoriteButton.didUpdateData p hud adding cell ok ids).1.spotsViewController =
      p.spotsViewController := by
  simp only [FavoriteButton.didUpdateData]
  cases adding with
  | true => rfl
  | false => cases cell.owner <;> cases ok <;> rfl

theorem spotsViewController_reloadData (p : Pages) (hud : HUD) (cell : SpotCollectionViewCell) :
    (FavoriteButton.reloadData p hud cell).1.spotsViewController = p.spotsViewController := by
  simp only [FavoriteButton.reloadData]
  split <;> rfl

/-- Cells and taps leave the pages of the cities as they are. -/
theorem plain_device {s t : Firestore × FavoriteButton.Device} {e : FavoriteButton.Event}
    (h : FavoriteButton.Step s e t) (page : ℕ) :
    plain (t.2.pages.spotsViewController page) = plain (s.2.pages.spotsViewController page) := by
  cases h with
  | didGetDocument htap hstage hcell => exact plain_didGetDocument ..
  | didUpdateData htap hstage hcell =>
    exact congrArg plain (congrFun (spotsViewController_didUpdateData ..) page)
  | reloadData htap hstage hcell =>
    exact congrArg plain (congrFun (spotsViewController_reloadData ..) page)
  | cellForItemAt | signedOut | signedIn | getDocument | updateData => rfl

/-- Cells and taps write documents of accounts only. -/
theorem documents_device {s t : Firestore × FavoriteButton.Device} {e : FavoriteButton.Event}
    (h : FavoriteButton.Step s e t) {c : Collection} (hc : c ≠ .users) :
    t.1.documents c = s.1.documents c := by
  cases h with
  | @updateData i ok tap dictionary ids htap hstage =>
    have hne : (userRef tap.uid).collection ≠ c := Ne.symm hc
    unfold FavoriteButton.update
    cases ok with
    | false => rfl
    | true =>
      cases hdoc : s.1.lookup (userRef tap.uid) with
      | none => simp [Firestore.updateData, hdoc]
      | some d => simp [Firestore.updateData, hdoc, Firestore.documents_insert_of_ne hne]
  | cellForItemAt | signedOut | signedIn | getDocument | didGetDocument | didUpdateData |
    reloadData => rfl

/-- What the runs have in common, whatever anybody's favourites are. -/
structure Common where
  db : Firestore
  searchViewController : SearchViewController
  spotFetches : ℕ → List (Option DocumentReference)
  spots : ℕ → List Spot
  /-- The page of a city that a cell belongs to, and the spot it shows. -/
  cell : ℕ → Option (ℕ × Spot)
  /-- A cell has been tapped an odd number of times since it was configured. -/
  tapped : ℕ → Bool

namespace Common

def didGetSpot (v : Common) (page i : ℕ) (ok : Bool) : Common :=
  let arrived : Option Spot :=
    if ok then (v.spotFetches page)[i]?.join.bind fun ref =>
      (v.db.lookup ref).bind Spot.initFirestoreDictionary
    else none
  { v with
    spotFetches := Function.update v.spotFetches page ((v.spotFetches page).set i none)
    spots := Function.update v.spots page (v.spots page ++ arrived.toList) }

def step (v : Common) : Event → Common
  | .write ref data => { v with db := v.db.write ref data }
  | .didGetDocuments ok =>
    { v with
      searchViewController := v.searchViewController.didGetDocuments
        (if ok then some (v.db.documents .cities) else none) }
  | .reloadData =>
    { v with
      searchViewController := v.searchViewController.reloadData.getD v.searchViewController }
  | .didSelectCity item page =>
    match v.searchViewController.didSelectItemAt item with
    | some (some (_, cityIds)) =>
      { v with
        spotFetches := Function.update v.spotFetches page (cityIds.map Collection.spots.document)
        spots := Function.update v.spots page [] }
    | _ => v
  | .city page (.didGetSpot i ok) => v.didGetSpot page i ok
  | .device (.cellForItemAt c (.city page) item) =>
    { v with
      cell := Function.update v.cell c ((v.spots page)[item]?.map fun spot => (page, spot))
      tapped := Function.update v.tapped c false }
  | .device (.favoriteButtonDidTap c) =>
    { v with tapped := Function.update v.tapped c !v.tapped c }
  | _ => v

end Common

/-- Everything but the requests of the taps, the pages of the favourites and the
details of a spot. -/
def Event.isCommon : Event → Bool
  | .device (.cellForItemAt _ (.city _) _) | .device (.favoriteButtonDidTap _) => true
  | .device _ | .openFavorites _ | .favorites _ _ | .didSelectSpot _ _ => false
  | _ => true

theorem Common.step_of_not_isCommon (v : Common) (e : Event) (h : e.isCommon = false) :
    v.step e = v := by
  cases e with
  | device e =>
    cases e with
    | cellForItemAt c owner item =>
      cases owner with
      | city page => cases h
      | favorites page => rfl
    | favoriteButtonDidTap c => cases h
    | getDocument | didGetDocument | updateData | didUpdateData | reloadData => rfl
  | openFavorites | favorites | didSelectSpot => rfl
  | signOut | signIn | write | didGetDocuments | reloadData | didSelectCity | city => cases h

/-- A cell of the page of a city, without its heart. -/
def inCity (cell : SpotCollectionViewCell) : Option (ℕ × Spot) :=
  match cell.owner with
  | .city page => some (page, cell.spot)
  | .favorites _ => none

theorem inCity_setSelected (p : Pages) (c : ℕ) (isSelected : Bool) (c' : ℕ) :
    ((p.setSelected c isSelected).cell c').bind inCity = (p.cell c').bind inCity := by
  rw [Pages.setSelected_cell]
  split_ifs with hc
  · subst hc
    cases p.cell c' <;> rfl
  · rfl

/-- The state is one of those that the common part stands for. -/
structure Matches (s : Firestore × Tabs) (v : Common) : Prop where
  documents : ∀ c ≠ .users, s.1.documents c = v.db.documents c
  searchViewController : s.2.searchViewController = v.searchViewController
  spotFetches : ∀ page loading, s.2.cityLoads page = some loading →
    loading.spotFetches = v.spotFetches page
  paths : ∀ page ref, some ref ∈ v.spotFetches page → ref.collection ≠ .users
  shown : ∀ page, CityPage.Shown (s.2.pages.spotsViewController page)
  spots : ∀ page, (s.2.pages.spotsViewController page).spots = v.spots page
  cell : ∀ c, (s.2.pages.cell c).bind inCity = v.cell c

theorem shown_of_plain {page page' : SpotsViewController} (h : plain page = plain page')
    (hs : CityPage.Shown page') : CityPage.Shown page := by
  have hspots : page.spots = page'.spots := (congrArg SpotsViewController.spots h :)
  have hcollection := congrArg SpotsViewController.spotsCollectionViewController h
  exact ⟨(congrArg SpotsCollectionViewController.spots hcollection).trans
      (hs.1.trans hspots.symm),
    (congrArg SpotsCollectionViewController.numberOfItems hcollection).trans
      (hs.2.trans (congrArg List.length hspots.symm))⟩

/-- A spot that a shown page gives to a cell is the one at that place in its list. -/
theorem spotAt_city {p : Pages} {page item : ℕ} {spot : Spot}
    (hs : CityPage.Shown (p.spotsViewController page))
    (h : p.spotAt (.city page) item = some spot) :
    (p.spotsViewController page).spots[item]? = some spot := by
  simp only [Pages.spotAt] at h
  split_ifs at h with hitem
  rwa [← hs.1]

/-- What a cell or a tap does to a state, the common part does with it. -/
theorem Matches.device {s : Firestore × Tabs} {v : Common} (hs : Matches s v)
    {e : FavoriteButton.Event} {db : Firestore} {d : FavoriteButton.Device}
    (h : FavoriteButton.Step (s.1, s.2.device) e (db, d)) :
    Matches (db, { s.2 with device := d }) (v.step (.device e)) := by
  have hplain := plain_device h
  have hshown := fun page => shown_of_plain (hplain page) (hs.shown page)
  have hspots := fun page =>
    (congrArg SpotsViewController.spots (hplain page)).trans (hs.spots page)
  have hdocuments := fun c (hc : c ≠ Collection.users) =>
    (documents_device h hc).trans (hs.documents c hc)
  have hfixed : ∀ w : Common, w.db = v.db → w.searchViewController = v.searchViewController →
      w.spotFetches = v.spotFetches → w.spots = v.spots →
      (∀ c, (d.pages.cell c).bind inCity = w.cell c) →
      Matches (db, { s.2 with device := d }) w := by
    intro w hdb hsearch hfetches hlists hcell
    refine ⟨hdb ▸ hdocuments, hsearch ▸ hs.searchViewController, hfetches ▸ hs.spotFetches,
      hfetches ▸ hs.paths, hshown, hlists ▸ hspots, hcell⟩
  cases h with
  | @cellForItemAt c owner item spot hspot howner =>
    cases owner with
    | city page =>
      refine hfixed _ rfl rfl rfl rfl fun c' => ?_
      have hlist : (v.spots page)[item]? = some spot := by
        rw [← hs.spots page]
        exact spotAt_city (hs.shown page) hspot
      by_cases hc : c' = c
      · subst hc
        simp [Common.step, hlist, inCity]
      · simp only [Common.step, Function.update_of_ne hc]
        exact hs.cell c'
    | favorites page =>
      refine hfixed v rfl rfl rfl rfl fun c' => ?_
      by_cases hc : c' = c
      · subst hc
        rw [← hs.cell c']
        cases hcell : s.2.pages.cell c' with
        | none => simp [inCity]
        | some cell => simp [inCity, howner cell hcell]
      · simp only [Function.update_of_ne hc]
        exact hs.cell c'
  | signedOut hcell huser =>
    exact hfixed _ rfl rfl rfl rfl fun c => (inCity_setSelected ..).trans (hs.cell c)
  | signedIn hcell huser =>
    exact hfixed _ rfl rfl rfl rfl fun c => (inCity_setSelected ..).trans (hs.cell c)
  | getDocument htap hstage => exact hfixed v rfl rfl rfl rfl hs.cell
  | didGetDocument htap hstage hcell =>
    refine hfixed v rfl rfl rfl rfl fun c => ?_
    rw [FavoriteButton.Device.setStage_pages, FavoriteButton.didGetDocument_cell]
    exact hs.cell c
  | updateData htap hstage => exact hfixed v rfl rfl rfl rfl hs.cell
  | didUpdateData htap hstage hcell =>
    refine hfixed v rfl rfl rfl rfl fun c => ?_
    rw [FavoriteButton.Device.setStage_pages, FavoriteButton.didUpdateData_cell]
    exact hs.cell c
  | reloadData htap hstage hcell =>
    refine hfixed v rfl rfl rfl rfl fun c => ?_
    rw [FavoriteButton.Device.setStage_pages, FavoriteButton.reloadData_cell]
    exact hs.cell c

/-- What a page of a city has become is what the common part has for it. -/
theorem Matches.setCityLoading {s : Firestore × Tabs} {v : Common} (hs : Matches s v) (page : ℕ)
    {loading : CityPage.Loading} (hshown : CityPage.Shown loading.page)
    (hpaths : ∀ ref, some ref ∈ loading.spotFetches → ref.collection ≠ .users) :
    Matches (s.1, s.2.setCityLoading page loading)
      { v with
        spotFetches := Function.update v.spotFetches page loading.spotFetches
        spots := Function.update v.spots page loading.page.spots } := by
  refine ⟨hs.documents, hs.searchViewController, fun page' loading' hload => ?_,
    fun page' ref hmem => ?_, fun page' => ?_, fun page' => ?_, hs.cell⟩
  · by_cases hpage : page' = page
    · subst hpage
      obtain rfl : loading = loading' := by simpa [Tabs.setCityLoading] using hload
      simp
    · simp only [Tabs.setCityLoading, Function.update_of_ne hpage] at hload ⊢
      exact hs.spotFetches page' loading' hload
  · by_cases hpage : page' = page
    · subst hpage
      exact hpaths ref (by simpa using hmem)
    · simp only [Function.update_of_ne hpage] at hmem
      exact hs.paths page' ref hmem
  · by_cases hpage : page' = page
    · subst hpage
      simpa [Tabs.setCityLoading, Tabs.pages, Pages.updateCityPage] using hshown
    · simpa [Tabs.setCityLoading, Tabs.pages, Pages.updateCityPage,
        Function.update_of_ne hpage] using hs.shown page'
  · by_cases hpage : page' = page
    · subst hpage
      simp [Tabs.setCityLoading, Tabs.pages, Pages.updateCityPage]
    · simpa [Tabs.setCityLoading, Tabs.pages, Pages.updateCityPage,
        Function.update_of_ne hpage] using hs.spots page'

/-- A reply that brings no spot. -/
theorem Matches.city_same {s : Firestore × Tabs} {v : Common} (hs : Matches s v) {page : ℕ}
    {loading r : CityPage.Loading} (hload : s.2.cityLoads page = some loading)
    (hfetches : r.spotFetches = loading.spotFetches)
    (hspots : r.page.spots = (s.2.pages.spotsViewController page).spots)
    (hshown : CityPage.Shown r.page) : Matches (s.1, s.2.setCityLoading page r) v := by
  have hpaths : ∀ ref, some ref ∈ r.spotFetches → ref.collection ≠ .users := by
    rw [hfetches, hs.spotFetches page loading hload]
    exact hs.paths page
  have h := hs.setCityLoading page hshown hpaths
  rw [hfetches, hspots, hs.spots page, hs.spotFetches page loading hload,
    Function.update_eq_self, Function.update_eq_self] at h
  exact h

/-- The reply for a spot. -/
theorem Matches.didGetSpot {s : Firestore × Tabs} {v : Common} (hs : Matches s v) {page i : ℕ}
    {ok : Bool} {loading r : CityPage.Loading} (arrived : Option Spot)
    (hload : s.2.cityLoads page = some loading)
    (hfetches : r.spotFetches = loading.spotFetches.set i none)
    (hspots : r.page.spots = (s.2.pages.spotsViewController page).spots ++ arrived.toList)
    (hshown : CityPage.Shown r.page)
    (harrived : (if ok then loading.spotFetches[i]?.join.bind fun ref =>
      (s.1.lookup ref).bind Spot.initFirestoreDictionary else none) = arrived) :
    Matches (s.1, s.2.setCityLoading page r) (v.didGetSpot page i ok) := by
  have hsame := hs.spotFetches page loading hload
  have hpaths : ∀ ref, some ref ∈ r.spotFetches → ref.collection ≠ .users := by
    intro ref hmem
    rw [hfetches, hsame] at hmem
    rcases List.mem_or_eq_of_mem_set hmem with hmem | hnone
    · exact hs.paths page ref hmem
    · cases hnone
  have hread : ((v.spotFetches page)[i]?.join.bind fun ref =>
      (s.1.lookup ref).bind Spot.initFirestoreDictionary) =
      (v.spotFetches page)[i]?.join.bind fun ref =>
        (v.db.lookup ref).bind Spot.initFirestoreDictionary := by
    cases hfetch : (v.spotFetches page)[i]?.join with
    | none => rfl
    | some ref =>
      have hne := hs.paths page ref (List.mem_of_getElem? (Option.join_eq_some_iff.mp hfetch))
      rw [Option.bind_some, Option.bind_some,
        Firestore.lookup_of_documents (hs.documents ref.collection hne) ref.documentID]
  have h := hs.setCityLoading page hshown hpaths
  rw [hfetches, hspots, hs.spots page, hsame] at h
  rw [hsame, hread] at harrived
  simp only [Common.didGetSpot, harrived]
  exact h

theorem Matches.city {s : Firestore × Tabs} {v : Common} (hs : Matches s v) {page : ℕ}
    {e : CityPage.Event} {loading r : CityPage.Loading}
    (hload : s.2.cityLoads page = some loading)
    (h : CityPage.Step s.1 unseen
      { loading with page := s.2.pages.spotsViewController page, hud := s.2.device.hud } e r) :
    Matches (s.1, s.2.setCityLoading page r) (v.step (.city page e)) := by
  cases h with
  | lost hfetch =>
    exact hs.didGetSpot none hload rfl (by simp) (hs.shown page) (by simp)
  | missing hfetch hdoc =>
    refine hs.didGetSpot none hload rfl (by simp [CityPage.Loading.leave])
      (hs.shown page) ?_
    simp only at hfetch
    simp [hfetch, hdoc]
  | @arrived i ref dict spot hfetch hdoc hspot =>
    refine hs.didGetSpot (some spot) hload rfl rfl ⟨rfl, rfl⟩ ?_
    simp only at hfetch
    simp [hfetch, hdoc, hspot]
  | userLost huser => exact hs.city_same hload rfl rfl (hs.shown page)
  | unlisted huser hnone => exact hs.city_same hload rfl rfl (hs.shown page)
  | listed huser => exact hs.city_same hload rfl rfl (hs.shown page)
  | notify hgroup hnotified => exact hs.city_same hload rfl rfl (hs.shown page)

theorem step_matches {s t : Firestore × Tabs} {v : Common} {e : Event} (hs : Matches s v)
    (h : step s e = some t) : Matches t (v.step e) := by
  cases step_cases h with
  | signOut => exact { hs with }
  | signIn => exact { hs with }
  | write =>
    exact { hs with documents := fun c hc => Firestore.documents_write (hs.documents c hc) _ _ }
  | @didGetDocuments ok hlisting =>
    refine { hs with searchViewController := ?_ }
    show _ = v.searchViewController.didGetDocuments _
    rw [hs.searchViewController, hs.documents .cities (by decide)]
  | reloadData hreload =>
    refine { hs with searchViewController := ?_ }
    show _ = v.searchViewController.reloadData.getD _
    rw [← hs.searchViewController, hreload]
    rfl
  | noCity hitem =>
    rw [hs.searchViewController] at hitem
    simp only [Common.step, hitem]
    exact hs
  | @openCity item page cityEnum cityIds hitem hfresh refs hrefs =>
    have hpaths : ∀ ref, some ref ∈ refs.map some → ref.collection ≠ .users := by
      intro ref hmem
      rw [← hrefs] at hmem
      obtain ⟨id, -, href⟩ := List.mem_map.mp hmem
      intro husers
      have hroot := root_of_document href
      rw [husers] at hroot
      cases hroot
    have hopen := @Matches.setCityLoading s v hs page
      (CityPage.opened (CityPage.vc cityIds) s.2.device.hud s.2.device.currentUser refs) ⟨rfl, rfl⟩
      hpaths
    rw [hs.searchViewController] at hitem
    simp only [Common.step, hitem, hrefs]
    exact hopen
  | didSelectSpot hspot => exact hs
  | openFavorites hfresh => exact { hs with }
  | city hload hstep => exact hs.city hload hstep
  | favorites hload hstep => exact { hs with }
  | device hstep => exact hs.device hstep

theorem run_matches {s t : Firestore × Tabs} {v : Common} {es : List Event} (hs : Matches s v)
    (hr : run step s es = some t) : Matches t (es.foldl Common.step v) := by
  induction es generalizing s v with
  | nil =>
    obtain rfl := Option.some.inj hr
    exact hs
  | cons e es ih =>
    obtain ⟨m, hm, hrest⟩ := run_cons.mp hr
    exact ih (step_matches hs hm) hrest

/-- What a page of a city has been sent of its account's favourites, and how much of
that each of its cells was configured with. -/
structure Sent where
  favorites : List String
  cell : ℕ → List String

/-- The page `page` was opened by the account `a`. -/
def note (a : String) (page : ℕ) (s : Firestore × Tabs) (e : Event) (sent : Sent) : Sent :=
  match e with
  | .city page' (.didGetUser true) =>
    if page' = page then { sent with favorites := FavoriteButton.stored s.1 a } else sent
  | .device (.cellForItemAt c (.city page') _) =>
    if page' = page then { sent with cell := Function.update sent.cell c sent.favorites }
    else sent
  | _ => sent

/-- The page keeps what it has been sent, and every heart is what its cell was
configured with, flipped by the taps. -/
structure Remembers (a : String) (page : ℕ) (s : Firestore × Tabs) (v : Common) (sent : Sent) :
    Prop where
  favorites : (s.2.pages.spotsViewController page).favoriteSpotsIDs = sent.favorites
  closed : s.2.cityLoads page = none → sent.favorites = []
  fetch : ∀ loading uid, s.2.cityLoads page = some loading → loading.userFetch = some uid →
    uid = a ∧ sent.favorites = []
  cell : ∀ c cell, s.2.pages.cell c = some cell → cell.owner = .city page →
    cell.isSelected = (decide (cell.spot.id ∈ sent.cell c) ^^ v.tapped c)

/-- The account `a` is signed in when it opens the page. -/
def OpenedBy (a : String) (page : ℕ) (s : Firestore × Tabs) (e : Event) : Prop :=
  ∀ item, e = .didSelectCity item page → s.2.device.currentUser = some a

/-- A tap flips the heart of its cell. -/
theorem Remembers.setSelected {a : String} {page : ℕ} {s : Firestore × Tabs} {v : Common}
    {sent : Sent} (hs : Remembers a page s v sent) {c : ℕ} {tapped : SpotCollectionViewCell}
    (hcell : s.2.pages.cell c = some tapped) {c' : ℕ} {cell : SpotCollectionViewCell}
    (hc : (s.2.pages.setSelected c !tapped.isSelected).cell c' = some cell)
    (howner : cell.owner = .city page) :
    cell.isSelected =
      (decide (cell.spot.id ∈ sent.cell c') ^^ Function.update v.tapped c (!v.tapped c) c') := by
  rw [Pages.setSelected_cell] at hc
  split_ifs at hc with hcc
  · subst hcc
    rw [hcell] at hc
    obtain rfl := Option.some.inj hc
    rw [Function.update_self, Bool.xor_not, ← hs.cell c' tapped hcell howner]
  · rw [Function.update_of_ne hcc]
    exact hs.cell c' cell hc howner

/-- A configured cell gets what its page has been sent. -/
theorem Remembers.configured {a : String} {page : ℕ} {s : Firestore × Tabs} {v : Common}
    {sent : Sent} (hs : Remembers a page s v sent) {c : ℕ} {owner : Owner} {item : ℕ}
    {spot : Spot} {c' : ℕ} {cell : SpotCollectionViewCell}
    (hc : Function.update s.2.pages.cell c (some ⟨owner, spot, s.2.pages.heart owner spot⟩) c' =
      some cell) (howner : cell.owner = .city page) :
    cell.isSelected = (decide (cell.spot.id ∈ (note a page s
      (.device (.cellForItemAt c owner item)) sent).cell c') ^^
        (v.step (.device (.cellForItemAt c owner item))).tapped c') := by
  by_cases hcc : c' = c
  · subst hcc
    obtain rfl : _ = cell := by simpa using hc
    obtain rfl : owner = .city page := howner
    simp [note, Common.step, Pages.heart, hs.favorites]
  · have hold : s.2.pages.cell c' = some cell := by simpa [Function.update_of_ne hcc] using hc
    rw [hs.cell c' cell hold howner]
    cases owner with
    | favorites page' => rfl
    | city page' =>
      simp only [note, Common.step, Function.update_of_ne hcc]
      split_ifs
      · simp only [Function.update_of_ne hcc]
      · rfl

/-- What leaves the page, its loading and the cells alone. -/
theorem Remembers.of_eq {a : String} {page : ℕ} {s t : Firestore × Tabs} {v w : Common}
    {sent : Sent} (hs : Remembers a page s v sent)
    (hpage : t.2.pages.spotsViewController page = s.2.pages.spotsViewController page)
    (hload : t.2.cityLoads page = s.2.cityLoads page) (hcell : t.2.pages.cell = s.2.pages.cell)
    (htapped : w.tapped = v.tapped) : Remembers a page t w sent := by
  refine ⟨hpage ▸ hs.favorites, hload ▸ hs.closed, hload ▸ hs.fetch, fun c cell hc howner => ?_⟩
  rw [htapped]
  exact hs.cell c cell (hcell ▸ hc) howner

theorem Remembers.device {a : String} {page : ℕ} {s : Firestore × Tabs} {v : Common}
    {sent : Sent} (hs : Remembers a page s v sent) {e : FavoriteButton.Event} {db : Firestore}
    {d : FavoriteButton.Device} (h : FavoriteButton.Step (s.1, s.2.device) e (db, d)) :
    Remembers a page (db, { s.2 with device := d }) (v.step (.device e))
      (note a page s (.device e) sent) := by
  have hfavorites : (d.pages.spotsViewController page).favoriteSpotsIDs =
      (s.2.pages.spotsViewController page).favoriteSpotsIDs :=
    (congrArg SpotsViewController.favoriteSpotsIDs (plain_device h page) :)
  have hnote : (note a page s (.device e) sent).favorites = sent.favorites := by
    unfold note
    split
    · cases ‹Event.device e = _›
    · split_ifs <;> rfl
    · rfl
  refine ⟨?_, ?_, ?_, fun c cell hc howner => ?_⟩
  · rw [hnote]
    exact hfavorites.trans hs.favorites
  · rw [hnote]
    exact hs.closed
  · rw [hnote]
    exact hs.fetch
  cases h with
  | cellForItemAt hspot howner' => exact hs.configured hc howner
  | signedOut hcell huser => exact hs.setSelected hcell hc howner
  | signedIn hcell huser => exact hs.setSelected hcell hc howner
  | getDocument htap hstage => exact hs.cell c cell hc howner
  | didGetDocument htap hstage hcell =>
    refine hs.cell c cell ?_ howner
    rwa [Tabs.pages, FavoriteButton.Device.setStage_pages,
      FavoriteButton.didGetDocument_cell] at hc
  | updateData htap hstage => exact hs.cell c cell hc howner
  | didUpdateData htap hstage hcell =>
    refine hs.cell c cell ?_ howner
    rwa [Tabs.pages, FavoriteButton.Device.setStage_pages,
      FavoriteButton.didUpdateData_cell] at hc
  | reloadData htap hstage hcell =>
    refine hs.cell c cell ?_ howner
    rwa [Tabs.pages, FavoriteButton.Device.setStage_pages,
      FavoriteButton.reloadData_cell] at hc

theorem tapped_city (v : Common) (page : ℕ) (e : CityPage.Event) :
    (v.step (.city page e)).tapped = v.tapped := by
  cases e <;> rfl

/-- The replies of a page of its own. -/
theorem Remembers.city {a : String} {page : ℕ} {s : Firestore × Tabs} {v : Common} {sent : Sent}
    (hs : Remembers a page s v sent) {e : CityPage.Event} {loading r : CityPage.Loading}
    (hload : s.2.cityLoads page = some loading)
    (h : CityPage.Step s.1 unseen
      { loading with page := s.2.pages.spotsViewController page, hud := s.2.device.hud } e r) :
    Remembers a page (s.1, s.2.setCityLoading page r) (v.step (.city page e))
      (note a page s (.city page e) sent) := by
  have hkeeps : ∀ sent' : Sent, sent'.cell = sent.cell → r.page.favoriteSpotsIDs = sent'.favorites →
      (∀ uid, r.userFetch = some uid → uid = a ∧ sent'.favorites = []) →
      Remembers a page (s.1, s.2.setCityLoading page r) (v.step (.city page e)) sent' := by
    intro sent' hcells hfavorites hfetch
    refine ⟨?_, ?_, ?_, fun c cell hc howner => ?_⟩
    · simpa [Tabs.setCityLoading, Tabs.pages, Pages.updateCityPage] using hfavorites
    · simp [Tabs.setCityLoading]
    · intro loading' uid hload' huid
      obtain rfl : r = loading' := by simpa [Tabs.setCityLoading] using hload'
      exact hfetch uid huid
    · rw [tapped_city, hcells]
      exact hs.cell c cell hc howner
  have hfetch := fun uid => hs.fetch loading uid hload
  cases h with
  | lost | missing | arrived | notify => exact hkeeps sent rfl hs.favorites hfetch
  | userLost huser => exact hkeeps sent rfl hs.favorites nofun
  | @unlisted uid huser hnone =>
    obtain ⟨rfl, hnil⟩ := hfetch uid huser
    simp only [note, if_true]
    refine hkeeps _ rfl ?_ nofun
    show (s.2.pages.spotsViewController page).favoriteSpotsIDs = _
    rw [hs.favorites, hnil, hnone]
  | @listed uid huser =>
    obtain ⟨rfl, -⟩ := hfetch uid huser
    simp only [note, if_true]
    exact hkeeps _ rfl rfl nofun

theorem Remembers.opened {a : String} {page : ℕ} {s : Firestore × Tabs} {v w : Common}
    {sent : Sent} (hs : Remembers a page s v sent) (hfresh : s.2.cityLoads page = none)
    (huser : s.2.device.currentUser = some a) (hud : HUD) (cityIds : List String)
    (refs : List DocumentReference) (htapped : w.tapped = v.tapped) :
    Remembers a page (s.1, s.2.setCityLoading page
      (CityPage.opened (CityPage.vc cityIds) hud s.2.device.currentUser refs)) w sent := by
  have hnil := hs.closed hfresh
  refine ⟨?_, ?_, ?_, fun c cell hc howner => ?_⟩
  · simp [Tabs.setCityLoading, Tabs.pages, Pages.updateCityPage, CityPage.opened, CityPage.vc,
      hnil]
  · simp [Tabs.setCityLoading]
  · intro loading uid hload huid
    obtain rfl : CityPage.opened _ _ _ _ = loading := by
      simpa [Tabs.setCityLoading] using hload
    exact ⟨(Option.some.inj (huser.symm.trans huid)).symm, hnil⟩
  · rw [htapped]
    exact hs.cell c cell hc howner

/-- What happens to another page. -/
theorem Remembers.other {a : String} {page page' : ℕ} {s : Firestore × Tabs} {v w : Common}
    {sent : Sent} (hs : Remembers a page s v sent) (hpage : page' ≠ page)
    (loading : CityPage.Loading) (htapped : w.tapped = v.tapped) :
    Remembers a page (s.1, s.2.setCityLoading page' loading) w sent := by
  refine hs.of_eq ?_ ?_ rfl htapped
  · simp [Tabs.setCityLoading, Tabs.pages, Pages.updateCityPage, Function.update_of_ne hpage.symm]
  · simp [Tabs.setCityLoading, Function.update_of_ne hpage.symm]

theorem step_remembers {a : String} {page : ℕ} {s t : Firestore × Tabs} {v : Common} {sent : Sent}
    {e : Event} (hs : Remembers a page s v sent) (hguard : OpenedBy a page s e)
    (h : step s e = some t) : Remembers a page t (v.step e) (note a page s e sent) := by
  cases step_cases h with
  | signOut | signIn | write | didGetDocuments | reloadData | didSelectSpot | openFavorites |
    favorites => exact hs.of_eq rfl rfl rfl rfl
  | @noCity item page' hitem =>
    refine hs.of_eq rfl rfl rfl ?_
    simp only [Common.step]
    split <;> rfl
  | @openCity item page' cityEnum cityIds hitem hfresh refs hrefs =>
    have htapped : (v.step (.didSelectCity item page')).tapped = v.tapped := by
      simp only [Common.step]
      split <;> rfl
    by_cases hpage : page' = page
    · subst hpage
      exact hs.opened hfresh (hguard item rfl) _ cityIds refs htapped
    · exact hs.other hpage _ htapped
  | @city page' e loading r hload hstep =>
    by_cases hpage : page' = page
    · subst hpage
      exact hs.city hload hstep
    · have hnote : note a page s (.city page' e) sent = sent := by
        unfold note
        split
        · rename_i heq
          obtain ⟨rfl, -⟩ := Event.city.inj heq
          exact if_neg hpage
        · cases ‹Event.city page' e = _›
        · rfl
      rw [hnote]
      exact hs.other hpage r (tapped_city ..)
  | device hstep => exact hs.device hstep

theorem run_remembers {a : String} {page : ℕ} {s t : Firestore × Tabs} {v : Common} {sent : Sent}
    {es : List Event} (hs : Remembers a page s v sent) (hguard : Along step (OpenedBy a page) s es)
    (hr : run step s es = some t) :
    Remembers a page t (es.foldl Common.step v) (noted step (note a page) s sent es) := by
  induction es generalizing s v sent with
  | nil =>
    obtain rfl := Option.some.inj hr
    exact hs
  | cons e es ih =>
    obtain ⟨m, hm, hrest⟩ := run_cons.mp hr
    rw [noted_cons hm]
    exact ih (step_remembers hs hguard.1 hm) (hguard.2 m hm) hrest

/-- The database in which the account `a` has the favourites `ids`. -/
def withFavorites (db : Firestore) (a : String) (data : Dictionary) (ids : Option (List String)) :
    Firestore :=
  db.insert (userRef a) (data.merge (FavoriteButton.favoriteData ids))

/-- The account `a` has opened the page of a city, and the account `b` is signed in by
the end of the run. -/
structure LeftOpen (a b : String) (page : ℕ) (db : Firestore) (currentUser : Option String)
    (es : List Event) (t : Firestore × Tabs) : Prop where
  run : run step (db, launch currentUser) es = some t
  opened : Along step (OpenedBy a page) (db, launch currentUser) es
  signedIn : t.2.device.currentUser = some b

/-- What the page and its cells have been given of the favourites of `a`. -/
def sentTo (a : String) (page : ℕ) (db : Firestore) (currentUser : Option String)
    (es : List Event) : Sent :=
  noted step (note a page) (db, launch currentUser) ⟨[], fun _ => []⟩ es

/-- The heart of a cell of the page of a city. -/
def heart (s : Firestore × Tabs) (page c : ℕ) : Option Bool :=
  (s.2.pages.cell c).bind fun cell =>
    if cell.owner = .city page then some cell.isSelected else none

/-- The common part of the app as it starts. -/
def Common.launch (db : Firestore) : Common :=
  ⟨db, .init, fun _ => [], fun _ => [], fun _ => none, fun _ => false⟩

theorem matches_launch (db : Firestore) (a : String) (data : Dictionary)
    (ids : Option (List String)) (currentUser : Option String) :
    Matches (withFavorites db a data ids, launch currentUser) (Common.launch db) where
  documents := fun _ hc => Firestore.documents_insert_of_ne (Ne.symm hc)
  searchViewController := rfl
  spotFetches := nofun
  paths := nofun
  shown := fun _ => ⟨rfl, rfl⟩
  spots := fun _ => rfl
  cell := fun _ => rfl

theorem remembers_launch (a : String) (page : ℕ) (db db' : Firestore)
    (currentUser : Option String) :
    Remembers a page (db, launch currentUser) (Common.launch db') ⟨[], fun _ => []⟩ where
  favorites := rfl
  closed := fun _ => rfl
  fetch := nofun
  cell := nofun

theorem heart_eq {a : String} {page : ℕ} {s : Firestore × Tabs} {v : Common} {sent : Sent}
    (hs : Matches s v) (hr : Remembers a page s v sent) (c : ℕ) :
    heart s page c = (v.cell c).bind fun shown =>
      if shown.1 = page then some (decide (shown.2.id ∈ sent.cell c) ^^ v.tapped c) else none := by
  rw [heart, ← hs.cell c]
  cases hc : s.2.pages.cell c with
  | none => rfl
  | some cell =>
    cases howner : cell.owner with
    | favorites page' => simp [inCity, howner]
    | city page' =>
      by_cases hpage : page' = page
      · subst hpage
        simp [inCity, howner, hr.cell c cell hc howner]
      · simp [inCity, howner, hpage]

/-- The hearts of a page that was opened by one account and is looked at by another
are the same in two runs, whatever differs in the first account's favourites, exactly
when every cell was last configured with a page that had been sent its spot in both
or in neither. -/
theorem hearts_same_iff {a b : String} {page : ℕ} {db : Firestore} {data : Dictionary}
    {ids₁ ids₂ : Option (List String)} {currentUser : Option String} {es₁ es₂ : List Event}
    {t₁ t₂ : Firestore × Tabs}
    (hes : es₁.filter Event.isCommon = es₂.filter Event.isCommon)
    (h₁ : LeftOpen a b page (withFavorites db a data ids₁) currentUser es₁ t₁)
    (h₂ : LeftOpen a b page (withFavorites db a data ids₂) currentUser es₂ t₂) :
    (∀ c, heart t₁ page c = heart t₂ page c) ↔
      ∀ c cell, t₁.2.pages.cell c = some cell → cell.owner = .city page →
        (cell.spot.id ∈ (sentTo a page (withFavorites db a data ids₁) currentUser es₁).cell c ↔
          cell.spot.id ∈
            (sentTo a page (withFavorites db a data ids₂) currentUser es₂).cell c) := by
  have hcommon : es₁.foldl Common.step (.launch db) = es₂.foldl Common.step (.launch db) := by
    rw [← foldl_filter_of_fixed Common.step_of_not_isCommon, hes,
      foldl_filter_of_fixed Common.step_of_not_isCommon]
  have hm₁ := run_matches (matches_launch db a data ids₁ currentUser) h₁.run
  have hm₂ := run_matches (matches_launch db a data ids₂ currentUser) h₂.run
  have hr₁ := run_remembers (remembers_launch a page _ db currentUser) h₁.opened h₁.run
  have hr₂ := run_remembers (remembers_launch a page _ db currentUser) h₂.opened h₂.run
  rw [← hcommon] at hm₂ hr₂
  constructor
  · intro h c cell hc howner
    have hshown := hm₁.cell c
    simp only [hc, Option.bind_some, inCity, howner] at hshown
    have hsame := h c
    rw [heart_eq hm₁ hr₁, heart_eq hm₂ hr₂, ← hshown] at hsame
    simpa [sentTo] using hsame
  · intro h c
    rw [heart_eq hm₁ hr₁, heart_eq hm₂ hr₂]
    cases hv : (es₁.foldl Common.step (.launch db)).cell c with
    | none => rfl
    | some shown =>
      obtain ⟨cell, hc, hcity⟩ := Option.bind_eq_some_iff.mp ((hm₁.cell c).trans hv)
      cases howner : cell.owner with
      | favorites page' => simp [inCity, howner] at hcity
      | city page' =>
        obtain rfl : (page', cell.spot) = shown := by simpa [inCity, howner] using hcity
        by_cases hpage : page' = page
        · subst hpage
          have hsame := h c cell hc howner
          simp only [sentTo] at hsame
          simp [hsame]
        · simp [hpage]

/-- One city with one spot. -/
def sampleCity : Firestore :=
  (AList.singleton ⟨.spots, "x"⟩ (sampleSpot "x" none).dictionary).insert
    ⟨.cities, CityEnum.TTH.rawValue⟩ (cityDocument ["x"])

/-- The account `a` opens the page of the city, signs out, and `b` signs in. Then the
cell is configured again. -/
def sampleVisit : List Event :=
  [.signIn "a", .didGetDocuments true, .reloadData, .didSelectCity 0 0,
    .city 0 (.didGetUser true), .city 0 (.didGetSpot 0 true), .city 0 .notify,
    .device (.cellForItemAt 0 (.city 0) 0), .signOut, .signIn "b",
    .device (.cellForItemAt 0 (.city 0) 0)]

/-- Where the visit ends. -/
def sampleVisited (ids : Option (List String)) : Firestore × Tabs :=
  ((run step (withFavorites sampleCity "a" [] ids, launch none) sampleVisit).getD
    (sampleCity, launch none))

theorem leftOpen_sampleVisit (ids : Option (List String))
    (hids : ids = some ["x"] ∨ ids = some ["x", "y"] ∨ ids = some []) :
    LeftOpen "a" "b" 0 (withFavorites sampleCity "a" [] ids) none sampleVisit
      (sampleVisited ids) := by
  obtain rfl | rfl | rfl := hids
  all_goals
    refine ⟨rfl, ?_, rfl⟩
    refine along_step nofun rfl (along_step nofun rfl (along_step nofun rfl ?_))
    refine along_step (fun _ _ => rfl) rfl (along_step nofun rfl (along_step nofun rfl ?_))
    refine along_step nofun rfl (along_step nofun rfl (along_step nofun rfl ?_))
    exact along_step nofun rfl (along_step nofun rfl trivial)

/-- The second list has one id more, which no cell of the page shows. -/
theorem hearts_same_iff_sample :
    run step (withFavorites sampleCity "a" [] (some ["x"]), launch none) sampleVisit =
        some (sampleVisited (some ["x"])) ∧
      run step (withFavorites sampleCity "a" [] (some ["x", "y"]), launch none) sampleVisit =
        some (sampleVisited (some ["x", "y"])) ∧
      ∀ c, heart (sampleVisited (some ["x"])) 0 c =
        heart (sampleVisited (some ["x", "y"])) 0 c := by
  refine ⟨rfl, rfl, (@hearts_same_iff "a" "b" 0 sampleCity [] (some ["x"]) (some ["x", "y"]) none
    sampleVisit sampleVisit _ _ rfl (leftOpen_sampleVisit _ (.inl rfl))
    (leftOpen_sampleVisit _ (.inr (.inl rfl)))).mpr fun c cell hcell _ => ?_⟩
  have hsent : ∀ ids, ids = ["x"] ∨ ids = ["x", "y"] →
      (sentTo "a" 0 (withFavorites sampleCity "a" [] (some ids)) none sampleVisit).cell c =
        if c = 0 then ids else [] := by
    rintro ids (rfl | rfl)
    all_goals
      by_cases hc : c = 0
      · subst hc
        rfl
      · rw [if_neg hc]
        exact (Function.update_of_ne hc _ _).trans (Function.update_of_ne hc _ _)
  rw [hsent _ (.inl rfl), hsent _ (.inr rfl)]
  split_ifs with hc
  · subst hc
    have hshown : ((sampleVisited (some ["x"])).2.pages.cell 0).map (fun cell => cell.spot.id) =
        some "x" := by decide
    rw [hcell, Option.map_some, Option.some.injEq] at hshown
    simp [hshown]
  · exact Iff.rfl

/-- The account `b` sees a favourite of `a`. -/
theorem hearts_tell_favorites :
    ∃ es t₁ t₂, LeftOpen "a" "b" 0 (withFavorites sampleCity "a" [] (some ["x"])) none es t₁ ∧
      LeftOpen "a" "b" 0 (withFavorites sampleCity "a" [] (some [])) none es t₂ ∧
      t₁.2.device.idle = true ∧ t₂.2.device.idle = true ∧ heart t₁ 0 0 ≠ heart t₂ 0 0 :=
  ⟨sampleVisit, _, _, leftOpen_sampleVisit _ (.inl rfl),
    leftOpen_sampleVisit _ (.inr (.inr rfl)), rfl, rfl, by decide⟩

end TaiwanSpots.Screens
