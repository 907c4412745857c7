import TaiwanSpots.FavoriteRemovals
import TaiwanSpots.ShownSpots

/-!
# The favourites after a rebuild

The documents of the accounts keep ids only, and a rebuild replaces the spots behind
them. Of the favourites of an account, its page then has those that the download still
has, each as the page of its city displays it, and no trace of the others.
-/
namespace TaiwanSpots
open DocumentStore Runs

section
variable {db db' : Firestore} {spots : List Spot}

theorem lookup_listed (hdb : catalogue db = catalogue db') {c : Collection}
    (hc : c.root ≠ .users) (id : String) : db'.lookup ⟨c, id⟩ = db.lookup ⟨c, id⟩ :=
  (lookup_of_catalogue hdb hc).symm

theorem Rebuilt.of_catalogue (h : Rebuilt db spots) (hdb : catalogue db = catalogue db') :
    Rebuilt db' spots := by
  have hcity := lookup_listed hdb (c := .cities) nofun
  have hspot := lookup_listed hdb (c := .spots) nofun
  constructor
  · simpa only [hcity] using h.city_exists
  · simpa only [hcity] using h.city_ids
  · simpa only [hspot] using h.spot_exists
  · simpa only [hspot] using h.spot_last
  · simpa only [hcity] using h.no_other_city

theorem Indexed.of_catalogue (h : Indexed db spots) (hdb : catalogue db = catalogue db') :
    Indexed db' spots := by
  have hcity := lookup_listed hdb (c := .cities) nofun
  have hspot := lookup_listed hdb (c := .spots) nofun
  constructor
  · simpa only [hcity] using h.city
  · simpa only [hcity] using h.no_other_city
  · simpa only [hspot] using h.spot
  · exact h.valid

/-- The last entry of the download with the id and a city that is known. -/
def entry (spots : List Spot) (id : String) : Option Spot :=
  (spots.filter fun s => s.cityEnum.isSome ∧ s.id = id).getLast?

theorem Rebuilt.lookup_eq_entry (h : Rebuilt db spots) (id : String) :
    (db.lookup ⟨.spots, id⟩).bind Spot.initFirestoreDictionary = entry spots id := by
  rw [h.spot_last, entry]
  cases (spots.filter fun s => s.cityEnum.isSome ∧ s.id = id).getLast? with
  | none => rfl
  | some last => exact last.initFirestoreDictionary_dictionary

theorem Rebuilt.spotDocument_eq_entry (h : Rebuilt db spots) {id : String}
    (hid : ValidDocumentID id) :
    (db.spotDocument id).bind Spot.initFirestoreDictionary = entry spots id := by
  rw [Firestore.spotDocument, document_of_valid hid, Option.bind_some, h.lookup_eq_entry]

/-- An entry is found under its own id, and the page of its city displays it. -/
theorem Rebuilt.entry_eq_some (h : Rebuilt db spots) {id : String} {spot : Spot} :
    entry spots id = some spot ↔ spot.id = id ∧ ∃ c, spot ∈ MapPage.shown spots c := by
  constructor
  · intro hentry
    have hmem := List.mem_of_getLast? hentry
    simp only [List.mem_filter, decide_eq_true_eq] at hmem
    obtain ⟨-, -, rfl⟩ := hmem
    refine ⟨rfl, (MapPage.lookup_iff_shown h spot).mp ?_⟩
    rw [h.spot_last]
    exact congrArg (Option.map Spot.dictionary) hentry
  · rintro ⟨rfl, hshown⟩
    rw [← h.lookup_eq_entry, (MapPage.lookup_iff_shown h spot).mpr hshown, Option.bind_some,
      Spot.initFirestoreDictionary_dictionary]

end

/-- What the documents have is the spots that could be decoded. -/
theorem FavoritesPage.spots_of_documented {db : Firestore} {ids : List String} {spots : List Spot}
    (h : (spots.map some).Perm (documented db ids)) :
    spots.Perm (ids.filterMap fun id =>
      (db.spotDocument id).bind Spot.initFirestoreDictionary) := by
  have hdecoded := h.filterMap id
  simpa [documented, List.filterMap_map, List.filterMap_filterMap, Option.bind_map,
    Function.comp_def] using hdecoded

section
variable {κ : Type*} [DecidableEq κ] {o : Outcomes} {characters : String → ℕ} {user : User}
  {count : ℤ} {spots : List Spot} {s t : Groups Firestore Unit Rebuild κ Client.App}
  {es : List ((Unit × Event) ⊕ (κ × Client.Event))}

/-- A rebuild among apps leaves the listings that it leaves alone. -/
theorem catalogue_of_rebuild (hp : apiButtonDidTap user count = some (s.first ()))
    (hr : run (Client.system (fun _ => o) characters) s es = some t)
    (hf : (t.first ()).Finished) :
    ∃ u, Agree u (sequential o count s.store) ∧ catalogue u = catalogue t.store := by
  obtain ⟨u, hu, hcatalogue⟩ := run_first (rebuild_worksOn fun _ => o)
    (app_leavesAlone characters) (fun _ => trivial) rfl hr
  exact ⟨u, run_agree_sequential hp (run_interleave_unit hu) hf, hcatalogue⟩

/-- After a rebuild in which everything succeeds, whatever apps have done meanwhile: the
page of an account's favourites has one spot for each favourite that the download still has,
as its last entry has it, and these are the favourites that the pages of the cities display.
The ids of the download and of the favourites are IDs that a document can have. -/
theorem favorites_after_rebuild {uid : String} {hud : HUD} {ls : List FavoritesPage.Event}
    {load : FavoritesPage.Loading} (hdb : NamedByID s.store) (ho : o.AllSucceed)
    (hd : getTaiwanSpots count o.data = .completed spots) (hids : ValidIDs spots)
    (hp : apiButtonDidTap user count = some (s.first ()))
    (hr : run (Client.system (fun _ => o) characters) s es = some t)
    (hf : (t.first ()).Finished)
    (hstored : ∀ id ∈ FavoriteButton.stored t.store uid, ValidDocumentID id)
    (hls : ∀ e ∈ ls, e.succeeds = true)
    (hload : run (FavoritesPage.step t.store) (FavoritesPage.viewDidLoad hud (some uid)) ls =
      some load) (hdone : load.Done) :
    load.page.favoriteSpots.Perm
      ((FavoriteButton.stored t.store uid).filterMap (entry spots)) ∧
    (∀ spot, spot ∈ load.page.favoriteSpots ↔
      spot.id ∈ FavoriteButton.stored t.store uid ∧ ∃ c, spot ∈ MapPage.shown spots c) ∧
    ∀ c, CityPage.Displays t.store (idsOf c spots) (MapPage.shown spots c) := by
  obtain ⟨u, halone, hcatalogue⟩ := catalogue_of_rebuild hp hr hf
  have hrebuilt : Rebuilt t.store spots :=
    (rebuilt_of_agree ho hdb hd hids halone).of_catalogue hcatalogue
  have hindexed : Indexed t.store spots :=
    (indexed_of_agree ho hdb.untrapped hd hids halone).of_catalogue hcatalogue
  have hspots : load.page.favoriteSpots.Perm
      ((FavoriteButton.stored t.store uid).filterMap (entry spots)) := by
    obtain ⟨-, hloaded⟩ := FavoritesPage.loaded_favorites hls hload hdone
    refine (FavoritesPage.spots_of_documented hloaded).trans (List.Perm.of_eq ?_)
    exact List.filterMap_congr fun id hid => hrebuilt.spotDocument_eq_entry (hstored id hid)
  refine ⟨hspots, fun spot => ?_, hindexed.displays⟩
  simp only [hspots.mem_iff, List.mem_filterMap, hrebuilt.entry_eq_some]
  constructor
  · rintro ⟨id, hid, rfl, hshown⟩
    exact ⟨hid, hshown⟩
  · rintro ⟨hid, hshown⟩
    exact ⟨spot.id, hid, rfl, hshown⟩

end

/-- An account with two favourites, one of which has no document. -/
def sampleVisited : Firestore :=
  AList.insert (userRef "u") (FavoriteButton.favoriteData (some ["b", "a"]))
    (sampleDatabase "a" "臺東縣")

theorem namedByID_sampleVisited : NamedByID sampleVisited := by
  intro id data hdoc
  rw [sampleVisited, AList.lookup_insert_ne (by simp [userRef])] at hdoc
  exact namedByID_sampleDatabase (by decide) _ id data hdoc

/-- An address is entered while the spot of the other favourite moves to another city. -/
def sampleMove : List ((Unit × Event) ⊕ (Unit × Client.Event)) :=
  [.inl ((), .getDocuments), .inl ((), .acknowledge (.deleteSpot "a")), .inl ((), .notify),
    .inl ((), .getDocuments), .inr ((), .stepOne "a@b.tw"),
    .inl ((), .acknowledge (.deleteCity "臺東縣")), .inl ((), .notify), .inl ((), .dataTask),
    .inl ((), .acknowledge (.setCity .TNH)), .inl ((), .acknowledge (.setSpot 0)),
    .inl ((), .notify)]

theorem favorites_after_rebuild_sample :
    ∃ t load, run (Client.system (fun _ => sampleFeedOutcomes [sampleEntry "a" "臺南市"])
          String.length) ⟨sampleVisited, fun _ => ⟨1, .removeSpots, ⟨0, 0⟩, []⟩,
          fun _ => Client.launch none⟩ sampleMove = some t ∧
      run (FavoritesPage.step t.store) (FavoritesPage.viewDidLoad ⟨none, 0, []⟩ (some "u"))
        [.didGetUser true, .didGetSpot 1 true, .didGetSpot 0 true, .notify 0, .notify 1] =
          some load ∧
      load.page.favoriteSpotsIDs = ["b", "a"] ∧
      load.page.favoriteSpots.Perm [sampleSpot "a" (some "臺南市")] := by
  have h := @favorites_after_rebuild Unit _ (sampleFeedOutcomes [sampleEntry "a" "臺南市"])
    String.length sampleAdmin 1 [sampleSpot "a" (some "臺南市")] ⟨sampleVisited,
      fun _ => ⟨1, .removeSpots, ⟨0, 0⟩, []⟩, fun _ => Client.launch none⟩ _ sampleMove "u"
    ⟨none, 0, []⟩ [.didGetUser true, .didGetSpot 1 true, .didGetSpot 0 true, .notify 0, .notify 1]
    _ namedByID_sampleVisited ⟨rfl, rfl, fun _ => rfl⟩ rfl (by decide) rfl rfl ⟨.inl rfl, rfl⟩
    (by decide) (by decide) rfl ⟨rfl, by decide⟩
  exact ⟨_, _, rfl, rfl, rfl, h.1⟩

end TaiwanSpots
