import TaiwanSpots.AccountSwitch
import TaiwanSpots.FavoritesAfterRebuild
import TaiwanSpots.Quiescence

/-!
# The screens of an app after a rebuild

An app that starts after a rebuild finds the index and the spots of its download, and no
app changes these. Its tiles are the cities of the download. A page of a city holds spots
of the city, and those that it lacks are on their way, whatever else the app does. When
the app has come to rest without a failed fetch, none is on its way any more.
-/
namespace TaiwanSpots
open DocumentStore Runs

section
variable {db db' : Firestore} {spots : List Spot}

theorem CityPage.awaited_of_catalogue (h : catalogue db = catalogue db')
    {loading : CityPage.Loading}
    (hrefs : ∀ ref, some ref ∈ loading.spotFetches → ref.collection.root = .spots) :
    CityPage.awaited db loading = CityPage.awaited db' loading := by
  refine List.filterMap_congr fun fetch hfetch => ?_
  cases fetch with
  | none => rfl
  | some ref =>
    have hroot := hrefs ref hfetch
    rw [Option.bind_some, Option.bind_some, lookup_of_catalogue h (by simp [hroot])]

/-- When nothing has arrived, every spot of the city is on its way. -/
theorem Indexed.awaited_getSpots (h : Indexed db spots) {c : CityEnum} {hud : HUD}
    {currentUser : Option String} {loading : CityPage.Loading}
    (hopen : CityPage.getSpots (CityPage.vc (idsOf c spots)) hud currentUser = some loading) :
    CityPage.awaited db loading = MapPage.shown spots c := by
  rw [CityPage.awaited_getSpots hopen, CityPage.vc, MapPage.shown, idsOf, List.filterMap_map,
    ← List.filterMap_eq_map]
  refine List.filterMap_congr fun spot hspot => ?_
  obtain ⟨hmem, hcity⟩ := List.mem_filter.mp hspot
  rw [decide_eq_true_eq] at hcity
  simp only [Function.comp_apply, Option.bind_some, h.spotDocument hmem (by simp [hcity]),
    Spot.initFirestoreDictionary_dictionary]

/-- No document of Spots has collections of its own. -/
def Flat (db : Firestore) : Prop :=
  ∀ ref : DocumentReference, ref.collection.root = .spots → ref.collection ≠ .spots →
    db.lookup ref = none

theorem Flat.of_catalogue (h : Flat db) (hdb : catalogue db = catalogue db') : Flat db' := by
  intro ref hroot hsub
  rw [← lookup_of_catalogue hdb (by simp [hroot])]
  exact h ref hroot hsub

/-- Valid ids lead to no document below another one. -/
theorem Flat.of_agree {o : Outcomes} {count : ℤ} (h : Flat db) (hdb : NamedByID db)
    (ho : o.AllSucceed) (hd : getTaiwanSpots count o.data = .completed spots)
    (hids : ValidIDs spots) (ha : Agree db' (sequential o count db)) : Flat db' := by
  intro ref hroot hsub
  have hclaimed : ¬ Claimed spots ref := by
    rintro ((hspots | hcities) | ⟨r, hr, rfl⟩)
    · exact hsub hspots
    · rw [hcities] at hroot
      cases hroot
    · rcases mem_updataSpotsAPI hr with ⟨spot, i, ref, hmem, hcity, href, rfl⟩ | ⟨-, c, -, rfl⟩
      · have hspot : spot ∈ spots := (List.mem_zipIdx hmem).2.2 ▸ List.getElem_mem _
        rw [document_of_valid (hids spot hspot hcity), Option.some.injEq] at href
        exact hsub (congrArg DocumentReference.collection href.symm)
      · cases hroot
  rw [ha, lookup_sequential_of_not_claimed hdb ho hd hclaimed]
  exact h ref hroot hsub

theorem Rebuilt.storesOnly (h : Rebuilt db spots) (hids : ValidIDs spots) (hflat : Flat db) :
    StoresOnly (fun spot => ∃ c, spot ∈ MapPage.shown spots c) db := by
  rintro ⟨collection, id⟩ data hroot hdoc
  by_cases hspots : collection = .spots
  · subst hspots
    obtain ⟨spot, hholds, hdata⟩ := MapPage.stored_of_rebuilt h hids id data hdoc
    exact ⟨spot, (MapPage.holds_iff_shown h hids spot).mp ⟨id, hholds⟩, hdata⟩
  · rw [hflat _ hroot hspots] at hdoc
    cases hdoc

end

namespace Screens

/-- The city is one of the download. -/
def Listed (spots : List Spot) (c : CityEnum) : Prop := ∃ spot ∈ spots, spot.cityEnum = some c

/-- The page shows spots of the city, and the others are on their way. -/
structure Loads (db : Firestore) (spots : List Spot) (c : CityEnum) (page : SpotsViewController)
    (loading : CityPage.Loading) : Prop where
  listed : Listed spots c
  shown : CityPage.Shown page
  perm : (page.spots ++ CityPage.awaited db loading).Perm (MapPage.shown spots c)

/-- The tiles and the pages of the cities are those of the download. -/
structure Current (db : Firestore) (spots : List Spot) (tabs : Tabs) : Prop where
  tiles : ∀ cityDict ∈ tabs.searchViewController.cityArray,
    ∃ c, Listed spots c ∧ cityDict = tile spots c
  pages : ∀ page loading, tabs.cityLoads page = some loading →
    ∃ c, Loads db spots c (tabs.pages.spotsViewController page) loading

section
variable {db : Firestore} {spots : List Spot} {s t : Firestore × Tabs} {e : Event}

/-- A page whose loading has come to rest shows all that it has asked for. -/
theorem Loads.displayed {c : CityEnum} {page : SpotsViewController}
    {loading : CityPage.Loading} (h : Loads db spots c page loading) (hrest : loading.AtRest) :
    (CityPage.displayed page).Perm (MapPage.shown spots c) := by
  have hnone : CityPage.awaited db loading = [] := by
    rw [CityPage.awaited, List.filterMap_eq_nil_iff]
    intro fetch hfetch
    rw [hrest.answered.1 fetch hfetch, Option.bind_none]
  rw [CityPage.displayed_of_shown h.shown]
  simpa [hnone] using h.perm

theorem Current.of_catalogue {db' : Firestore} {tabs : Tabs} (hs : Current db spots tabs)
    (hfetching : tabs.Fetching) (h : catalogue db = catalogue db') : Current db' spots tabs := by
  refine ⟨hs.tiles, fun page loading hloading => ?_⟩
  obtain ⟨c, hlisted, hshown, hperm⟩ := hs.pages page loading hloading
  have hrefs := hfetching.cities page loading hloading
  exact ⟨c, hlisted, hshown, CityPage.awaited_of_catalogue h hrefs ▸ hperm⟩

theorem launch_current (currentUser : Option String) :
    Current db spots (Client.launch currentUser).tabs :=
  ⟨fun _ h => absurd h List.not_mem_nil, by simp [Client.launch, launch]⟩

/-- A tile opens a page for the ids of its city. -/
theorem Current.didSelectItemAt {tabs : Tabs} (hs : Current db spots tabs) {item : ℕ}
    {cityEnum : CityEnum} {cityIds : List String}
    (h : tabs.searchViewController.didSelectItemAt item = some (some (cityEnum, cityIds))) :
    Listed spots cityEnum ∧ cityIds = idsOf cityEnum spots := by
  simp only [SearchViewController.didSelectItemAt] at h
  split_ifs at h
  obtain ⟨cityDict, hcity, hopen⟩ := Option.map_eq_some_iff.mp h
  obtain ⟨c, hlisted, rfl⟩ := hs.tiles cityDict (List.mem_of_getElem? hcity)
  have hkeys : (tile spots c).keys = [c] := rfl
  rw [hkeys, List.head?_cons, Option.bind_some, tile, AList.lookup_insert, Option.map_some] at hopen
  obtain ⟨rfl, rfl⟩ := Prod.mk.inj (Option.some.inj hopen)
  exact ⟨hlisted, rfl⟩

/-- The loading of one page is replaced together with the page. -/
theorem Current.setCityLoading {tabs : Tabs} (hs : Current db spots tabs) {page : ℕ}
    {loading : CityPage.Loading} (h : ∃ c, Loads db spots c loading.page loading) :
    Current db spots (tabs.setCityLoading page loading) := by
  refine ⟨hs.tiles, fun page' loading' hloading => ?_⟩
  simp only [Tabs.setCityLoading] at hloading
  by_cases hpage : page' = page
  · subst hpage
    rw [Function.update_self, Option.some.injEq] at hloading
    subst hloading
    simpa [Tabs.setCityLoading, Tabs.pages, Pages.updateCityPage] using h
  · rw [Function.update_of_ne hpage] at hloading
    simpa [Tabs.setCityLoading, Tabs.pages, Pages.updateCityPage, Function.update_of_ne hpage]
      using hs.pages page' loading' hloading

/-- A reply takes a spot from those on their way to those on the page. -/
theorem Current.city (hs : Current s.1 spots s.2) {page : ℕ} {e : CityPage.Event}
    (he : e.succeeds = true) (h : step s (.city page e) = some t) : Current s.1 spots t.2 := by
  obtain ⟨_, hold, h⟩ := Option.bind_eq_some_iff.mp h
  obtain ⟨r, hr, rfl⟩ := Option.map_eq_some_iff.mp h
  obtain ⟨loading, hloading, rfl⟩ := Option.map_eq_some_iff.mp hold
  obtain ⟨c, hlisted, hshown, hperm⟩ := hs.pages page loading hloading
  exact hs.setCityLoading
    ⟨c, hlisted, CityPage.step_shown hshown hr, (CityPage.step_awaited he hr).trans hperm⟩

theorem step_current (hdb : Indexed s.1 spots) (hs : Current s.1 spots s.2)
    (he : ∀ page e', e = .city page e' → e'.succeeds = true) (h : step s e = some t) :
    Current s.1 spots t.2 := by
  cases step_cases h with
  | signOut | signIn | write | noCity | didSelectSpot | openFavorites | favorites =>
    exact ⟨hs.tiles, hs.pages⟩
  | @didGetDocuments ok hlisting =>
    refine ⟨?_, hs.pages⟩
    cases ok with
    | false => exact hs.tiles
    | true =>
      intro cityDict hmem
      rcases List.mem_append.mp hmem with hmem | hmem
      · exact hs.tiles cityDict hmem
      · obtain ⟨snapshot, hsnapshot, rfl⟩ := List.mem_map.mp hmem
        obtain ⟨c, -, hids, htile⟩ := hdb.citydictionary hsnapshot
        refine ⟨c, ?_, htile⟩
        rw [ne_eq, idsOf_eq_nil] at hids
        push Not at hids
        exact hids
  | reloadData hreload =>
    simp only [SearchViewController.reloadData] at hreload
    split_ifs at hreload
    obtain rfl := Option.some.inj hreload
    exact ⟨hs.tiles, hs.pages⟩
  | openCity hitem hfresh hrefs =>
    obtain ⟨hlisted, rfl⟩ := hs.didSelectItemAt hitem
    refine hs.setCityLoading ⟨_, hlisted, ⟨rfl, rfl⟩, ?_⟩
    rw [hdb.awaited_getSpots (CityPage.getSpots_of_refs hrefs)]
    exact List.Perm.refl _
  | city => exact hs.city (he _ _ rfl) h
  | @device e db d hstep =>
    refine ⟨hs.tiles, fun page loading hloading => ?_⟩
    obtain ⟨c, hlisted, hshown, hperm⟩ := hs.pages page loading hloading
    have hplain : plain (d.pages.spotsViewController page) =
        plain (s.2.pages.spotsViewController page) := plain_device hstep page
    have hspots : (d.pages.spotsViewController page).spots =
        (s.2.pages.spotsViewController page).spots := (congrArg SpotsViewController.spots hplain :)
    refine ⟨c, hlisted, shown_of_plain hplain hshown, ?_⟩
    simpa only [Tabs.pages, hspots] using hperm

end

end Screens

namespace Client

section
variable {κ : Type*} [DecidableEq κ] {o : Outcomes} {characters : String → ℕ} {user : User}
  {count : ℤ} {spots : List Spot} {s t u : Groups Firestore Unit Rebuild κ App}
  {es fs : List ((Unit × TaiwanSpots.Event) ⊕ (κ × Event))} {k : κ}

/-- The fetches of the app's pages of cities succeed. -/
def Fetches (k : κ) (e : (Unit × TaiwanSpots.Event) ⊕ (κ × Event)) : Prop :=
  ∀ page e', e = .inr (k, .tabs (.city page e')) → e'.succeeds = true

/-- The database stays as the rebuild has left it, and the app shows nothing else. -/
structure AfterRebuild (db : Firestore) (spots : List Spot) (k : κ)
    (s : Groups Firestore Unit Rebuild κ App) : Prop where
  catalogue : catalogue s.store = catalogue db
  finished : (s.first ()).Finished
  only : (s.second k).tabs.pages.Only (fun spot => ∃ c, spot ∈ MapPage.shown spots c) ∧
    (s.second k).tabs.Fetching

/-- A rebuild that has finished leaves all steps to the apps. -/
theorem app_of_step {e : (Unit × TaiwanSpots.Event) ⊕ (κ × Event)} (hf : (s.first ()).Finished)
    (h : system (fun _ => o) characters s e = some t) :
    ∃ d app, e = .inr d ∧
      appProcess characters d.1 s.store (s.second d.1) d.2 = some (t.store, app) ∧
      t.first = s.first ∧ t.second = Function.update s.second d.1 app := by
  cases e with
  | inl e =>
    obtain ⟨hstep, -⟩ := beside_inl.mp h
    obtain ⟨store, p, hp, -⟩ := interleave_eq_some.mp hstep
    have hnone : rebuildProcess (fun _ => o) e.1 s.store (s.first e.1) e.2 = none :=
      hf.step_eq_none e.2
    exact absurd (hnone.symm.trans hp) nofun
  | inr d =>
    obtain ⟨hstep, hfirst⟩ := beside_inr.mp h
    obtain ⟨store, app, happ, heq⟩ := interleave_eq_some.mp hstep
    obtain ⟨rfl, hsecond⟩ := Shared.mk.inj heq
    exact ⟨d, app, rfl, happ, hfirst, hsecond⟩

theorem afterRebuild_of_step {db : Firestore} {e : (Unit × TaiwanSpots.Event) ⊕ (κ × Event)}
    (hdb : StoresOnly (fun spot => ∃ c, spot ∈ MapPage.shown spots c) db)
    (hs : AfterRebuild db spots k s) (h : system (fun _ => o) characters s e = some t) :
    AfterRebuild db spots k t := by
  obtain ⟨d, app, rfl, happ, hfirst, hsecond⟩ := app_of_step hs.finished h
  have hsame : catalogue t.store = catalogue s.store :=
    (app_leavesAlone characters _ _ _ _ _ trivial happ).1
  have hstores := hdb.of_catalogue hs.catalogue
  refine ⟨hsame.trans hs.catalogue, hfirst ▸ hs.finished, ?_⟩
  by_cases hk : k = d.1
  · subst hk
    rw [hsecond, Function.update_self]
    exact (app_only hstores hs.only happ).2
  · rw [hsecond, Function.update_of_ne hk]
    exact hs.only

theorem app_current {s t : Firestore × App} {e : Event} (hdb : Indexed s.1 spots)
    (happ : Screens.Current s.1 spots s.2.tabs)
    (he : ∀ page e', e = .tabs (.city page e') → e'.succeeds = true)
    (h : step characters s e = some t) : Screens.Current s.1 spots t.2.tabs := by
  cases step_cases h with
  | tabs =>
    exact Screens.step_current (s := (s.1, s.2.tabs)) hdb happ
      (fun page e' hcity => he page e' (hcity ▸ rfl)) (tabs_of_step h)
  | invalidEmail | stepOne | shortPassword | stepTwo | loginButtonDidTap | notSignedIn
  | nothingPicked | didFinishPickingMedia | didPutData | didDownloadURL | noURL | updateData
  | registration | didSignIn | profile => exact ⟨happ.tiles, happ.pages⟩

theorem current_of_step {db : Firestore} {e : (Unit × TaiwanSpots.Event) ⊕ (κ × Event)}
    (hdb : Indexed db spots) (hs : AfterRebuild db spots k s)
    (hcurrent : Screens.Current s.store spots (s.second k).tabs) (he : Fetches k e)
    (hfetching : (t.second k).tabs.Fetching)
    (h : system (fun _ => o) characters s e = some t) :
    Screens.Current t.store spots (t.second k).tabs := by
  obtain ⟨d, app, rfl, happ, -, hsecond⟩ := app_of_step hs.finished h
  have hsame : catalogue t.store = catalogue s.store :=
    (app_leavesAlone characters _ _ _ _ _ trivial happ).1
  have hnow : Indexed s.store spots := hdb.of_catalogue hs.catalogue.symm
  have hthis : Screens.Current s.store spots (t.second k).tabs := by
    by_cases hk : k = d.1
    · subst hk
      rw [hsecond, Function.update_self]
      simp only [appProcess] at happ
      split_ifs at happ
      exact app_current hnow hcurrent (fun page e' hcity => he page e' (hcity ▸ rfl)) happ
    · rw [hsecond, Function.update_of_ne hk]
      exact hcurrent
  exact hthis.of_catalogue hfetching hsame.symm

/-- An app starts after a rebuild in which everything succeeds, and whose ids are IDs that a
document can have, and the apps go on. Every spot that it ever shows is one of the download,
as its last entry has it. When no fetch of its city pages has failed and it has come to rest,
each of these shows what the download has for its city. -/
theorem screens_after_rebuild {currentUser : Option String} (hdb : NamedByID s.store)
    (hflat : Flat s.store) (ho : o.AllSucceed)
    (hd : getTaiwanSpots count o.data = .completed spots) (hids : ValidIDs spots)
    (hp : apiButtonDidTap user count = some (s.first ()))
    (hr : run (system (fun _ => o) characters) s es = some t) (hf : (t.first ()).Finished)
    (hlaunch : t.second k = launch currentUser)
    (hu : run (system (fun _ => o) characters) t fs = some u) :
    ((u.second k).tabs.pages.Only fun spot => ∃ c, spot ∈ MapPage.shown spots c) ∧
    ((∀ e ∈ fs, Fetches k e) → (u.second k).AtRest →
      ∀ page loading, (u.second k).tabs.cityLoads page = some loading →
        ∃ c, (∃ spot ∈ spots, spot.cityEnum = some c) ∧
          (CityPage.displayed ((u.second k).tabs.pages.spotsViewController page)).Perm
            (MapPage.shown spots c)) := by
  obtain ⟨v, halone, hcatalogue⟩ := catalogue_of_rebuild hp hr hf
  have hrebuilt : Rebuilt t.store spots :=
    (rebuilt_of_agree ho hdb hd hids halone).of_catalogue hcatalogue
  have hindexed : Indexed t.store spots :=
    (indexed_of_agree ho hdb.untrapped hd hids halone).of_catalogue hcatalogue
  have hstores := hrebuilt.storesOnly hids
    ((hflat.of_agree hdb ho hd hids halone).of_catalogue hcatalogue)
  have hstart : AfterRebuild t.store spots k t := by
    refine ⟨rfl, hf, ?_⟩
    rw [hlaunch]
    exact ⟨launch_only currentUser, launch_fetching currentUser⟩
  constructor
  · exact (invariant_of_step (fun _ _ _ hm => afterRebuild_of_step hstores hm) hstart hu).only.1
  · intro hfs hrest page loading hloading
    have hboth : AfterRebuild t.store spots k t ∧
        Screens.Current t.store spots (t.second k).tabs := by
      rw [hlaunch]
      exact ⟨hstart, Screens.launch_current currentUser⟩
    have hend : AfterRebuild t.store spots k u ∧
        Screens.Current u.store spots (u.second k).tabs := by
      refine invariant (I := fun m => AfterRebuild t.store spots k m ∧
        Screens.Current m.store spots (m.second k).tabs) ?_ hboth (along_of_forall hfs) hu
      intro m e m' hm he h
      have hnext := afterRebuild_of_step hstores hm.1 h
      exact ⟨hnext, current_of_step hindexed hm.1 hm.2 he hnext.only.2 h⟩
    obtain ⟨c, hloads⟩ := hend.2.pages page loading hloading
    exact ⟨c, hloads.listed, hloads.displayed (hrest.tabs.cities page loading hloading)⟩

end

def sampleRebuild : List ((Unit × TaiwanSpots.Event) ⊕ (Unit × Event)) :=
  [.getDocuments, .notify, .getDocuments, .notify, .dataTask, .acknowledge (.setCity .TTH),
    .acknowledge (.setSpot 0), .notify].map fun e => .inl ((), e)

/-- The app opens the page of the one city. -/
def sampleOpening : List ((Unit × TaiwanSpots.Event) ⊕ (Unit × Event)) :=
  [.didGetDocuments true, .reloadData, .didSelectCity 0 0, .city 0 (.didGetSpot 0 true),
    .city 0 .notify].map fun e => .inr ((), .tabs e)

def sampleOpened : Option (Groups Firestore Unit Rebuild Unit App) :=
  run (system (fun _ => sampleOutcomes []) String.length)
    ⟨∅, fun _ => ⟨1, .removeSpots, ⟨0, 0⟩, []⟩, fun _ => launch none⟩
    (sampleRebuild ++ sampleOpening)

/-- The app has run all that it has started to its end. -/
theorem sampleOpened_atRest {u : Groups Firestore Unit Rebuild Unit App}
    (hu : sampleOpened = some u) : (u.second ()).AtRest := by
  have observe {α : Type} (f : App → α) (a : α)
      (h : sampleOpened.map (fun u => f (u.second ())) = some a) : f (u.second ()) = a := by
    rw [hu] at h
    exact Option.some.inj h
  have hlogins := observe App.logins [] rfl
  have huploads := observe App.uploads [] rfl
  have hsetups := observe (fun app => app.profile.setups) [] rfl
  have hfavorites := observe (fun app => app.tabs.favoritesLoads) (fun _ => none) rfl
  have hcity := observe (fun app => (app.tabs.cityLoads 0).map fun loading =>
    (loading.spotFetches, loading.userFetch, loading.notified)) (some ([none], none, true)) rfl
  have hcities := observe (fun app page => app.tabs.cityLoads (page + 1)) (fun _ => none) rfl
  refine ⟨by simp [hlogins], by simp [huploads], by simp [Profile.Session.AtRest, hsetups],
    observe (fun app => app.registration.idle) true rfl,
    observe (fun app => app.tabs.listing) false rfl,
    observe (fun app => app.tabs.searchViewController.reloads) 0 rfl,
    observe (fun app => app.tabs.device.idle) true rfl, fun page loading hloading => ?_,
    by simp [hfavorites]⟩
  cases page with
  | zero =>
    rw [hloading, Option.map_some, Option.some.injEq, Prod.mk.injEq, Prod.mk.injEq] at hcity
    obtain ⟨hspots, huser, hnotified⟩ := hcity
    exact ⟨⟨by simp [hspots], huser⟩, fun _ => hnotified⟩
  | succ page => exact absurd ((congrFun hcities page).symm.trans hloading) nofun

theorem screens_after_rebuild_sample :
    ∃ u, sampleOpened = some u ∧
      ∃ c, (CityPage.displayed ((u.second ()).tabs.pages.spotsViewController 0)).Perm
        (MapPage.shown [sampleSpot "a" (some "臺東縣")] c) := by
  have h := @screens_after_rebuild Unit _ (sampleOutcomes []) String.length sampleAdmin 1
    [sampleSpot "a" (some "臺東縣")] ⟨∅, fun _ => ⟨1, .removeSpots, ⟨0, 0⟩, []⟩,
      fun _ => launch none⟩ _ _ sampleRebuild sampleOpening () none nofun (fun _ _ _ => rfl)
    ⟨rfl, rfl, fun _ => rfl⟩ rfl (by decide) rfl rfl ⟨.inl rfl, rfl⟩ rfl rfl
  obtain ⟨c, -, hspots⟩ := h.2 (by simp [sampleOpening, Fetches, CityPage.Event.succeeds])
    (sampleOpened_atRest rfl) 0 _ rfl
  exact ⟨_, rfl, c, hspots⟩

end Client
end TaiwanSpots
