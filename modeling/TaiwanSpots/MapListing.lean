import TaiwanSpots.FeedToScreen
import TaiwanSpots.MapPage
import TaiwanSpots.RebuildRecovery

/-!
# What the map lists

The map decodes the Spots documents that rebuilds have encoded. It finds each spot
once, under its own ID, whatever the rebuilds have left. The page of a city asks for
the ids of the index instead, one for every entry of the city.
-/
namespace TaiwanSpots.MapPage
open DocumentStore Runs

/-- The Spots document `id` is `spot`, whose id leads to it. -/
def Holds (db : Firestore) (id : String) (spot : Spot) : Prop :=
  Collection.spots.document spot.id = some ⟨.spots, id⟩ ∧
    db.lookup ⟨.spots, id⟩ = some spot.dictionary

/-- Every Spots document is a spot. -/
def Stored (db : Firestore) : Prop :=
  ∀ id data, db.lookup ⟨.spots, id⟩ = some data → ∃ spot, Holds db id spot ∧
    data = spot.dictionary

/-- The map has one point for each Spots document, of the spot that is stored in it. -/
def Maps (db : Firestore) (page : SpotsMapViewController) : Prop :=
  (page.annotations.map fun point => Collection.spots.document point.spot.id).Nodup ∧
  ∀ spot : Spot, (∃ point ∈ page.annotations, point.spot = spot) ↔ ∃ id, Holds db id spot

section
variable {db : Firestore} {snapshots : List (String × Dictionary)}

theorem Stored.snapshot (h : Stored db) (hlist : snapshots.Perm (db.documents .spots))
    {snapshot : String × Dictionary} (hmem : snapshot ∈ snapshots) :
    ∃ spot, Holds db snapshot.1 spot ∧ snapshot.2 = spot.dictionary ∧
      Spot.initFirestoreDictionary snapshot.2 = some spot := by
  obtain ⟨id, data⟩ := snapshot
  obtain ⟨spot, hspot, rfl⟩ := h id data (Firestore.mem_documents.mp (hlist.mem_iff.mp hmem))
  exact ⟨spot, hspot, rfl, spot.initFirestoreDictionary_dictionary⟩

/-- A listing decodes to the stored spots. -/
theorem Stored.mapM (h : Stored db) (hlist : snapshots.Perm (db.documents .spots)) :
    ∃ spots, (snapshots.mapM fun snapshot => Spot.initFirestoreDictionary snapshot.2) =
        some spots ∧
      (spots.map fun spot => Collection.spots.document spot.id).Nodup ∧
      ∀ spot : Spot, spot ∈ spots ↔ ∃ id, Holds db id spot := by
  refine ⟨_, mapM_eq_some_filterMap fun snapshot hmem => ?_, ?_, fun spot => ?_⟩
  · obtain ⟨spot, -, -, hspot⟩ := h.snapshot hlist hmem
    exact Option.isSome_of_eq_some hspot
  · have hrefs : (snapshots.filterMap fun snapshot =>
          Spot.initFirestoreDictionary snapshot.2).map
            (fun spot => Collection.spots.document spot.id) =
        (snapshots.map Prod.fst).map fun id => some ⟨.spots, id⟩ := by
      rw [List.map_filterMap, List.map_map, ← List.filterMap_eq_map]
      refine List.filterMap_congr fun snapshot hmem => ?_
      obtain ⟨spot, ⟨href, -⟩, -, hspot⟩ := h.snapshot hlist hmem
      simp [hspot, href]
    have hids : (snapshots.map Prod.fst).Nodup :=
      (hlist.map Prod.fst).nodup_iff.mpr (db.nodup_documents .spots)
    rw [hrefs]
    exact hids.map fun id id' heq => by simpa using heq
  · rw [List.mem_filterMap]
    constructor
    · rintro ⟨snapshot, hmem, hspot⟩
      obtain ⟨spot', hholds, -, hspot'⟩ := h.snapshot hlist hmem
      obtain rfl := Option.some.inj (hspot'.symm.trans hspot)
      exact ⟨snapshot.1, hholds⟩
    · rintro ⟨id, -, hdoc⟩
      exact ⟨(id, spot.dictionary), hlist.mem_iff.mpr (Firestore.mem_documents.mpr hdoc),
        spot.initFirestoreDictionary_dictionary⟩

/-- The only answer there can be is the one listing. -/
theorem loaded_of_answers {first later : List Event}
    (h : ((first ++ .didGetDocuments (some snapshots) :: later).filterMap answered).length ≤ 1) :
    loaded (first ++ .didGetDocuments (some snapshots) :: later) =
      snapshots.filterMap fun snapshot => Spot.initFirestoreDictionary snapshot.2 := by
  have hanswer : answered (.didGetDocuments (some snapshots)) = some snapshots := rfl
  rw [List.filterMap_append, List.filterMap_cons_some hanswer, List.length_append,
    List.length_cons] at h
  have hfirst : first.filterMap answered = [] := List.length_eq_zero_iff.mp (by omega)
  have hlater : later.filterMap answered = [] := List.length_eq_zero_iff.mp (by omega)
  simp [loaded, hfirst, hlater, hanswer]

/-- A map that has been given the listing shows it from then on. -/
theorem Stored.maps (h : Stored db) (hlist : snapshots.Perm (db.documents .spots))
    {first later : List Event} {s : SpotsViewController}
    (hr : run step .viewDidLoad (first ++ .didGetDocuments (some snapshots) :: later) = some s) :
    ∃ page, s.map = some page ∧ Maps db page := by
  have hinv := invariant_of_prefix (I := Inv) (fun pre m e m' _ hm h => step_inv hm h)
    inv_viewDidLoad hr
  have hloaded : s.map ≠ none := fun hnone => by
    simpa [answered] using (hinv.unloaded hnone (.didGetDocuments (some snapshots)) (by simp)).1
  obtain ⟨page, hpage⟩ := Option.ne_none_iff_exists'.mp hloaded
  have hshows := hinv.map page hpage
  have hone : ((first ++ .didGetDocuments (some snapshots) :: later).filterMap answered).length ≤
      1 := by
    rw [hshows.answers]
    split_ifs <;> omega
  obtain ⟨spots, hmapM, hnodup, hspots⟩ := h.mapM hlist
  have hannotations : page.annotations = spots.map SpotAnnotation.init := by
    rw [hshows.annotations, loaded_of_answers hone]
    have hdecodes := isSome_mapM_iff.mp (Option.isSome_of_eq_some hmapM)
    exact congrArg _ (Option.some.inj ((mapM_eq_some_filterMap hdecodes).symm.trans hmapM))
  refine ⟨page, hpage, ?_, fun spot => ?_⟩
  · rw [hannotations, List.map_map]
    exact hnodup
  · rw [hannotations, ← hspots spot]
    simp only [List.mem_map, exists_exists_and_eq_and, SpotAnnotation.init, exists_eq_right]

/-- A map that waits for its listing can be given it. -/
theorem Stored.step_isSome (h : Stored db) (hlist : snapshots.Perm (db.documents .spots))
    {m : SpotsViewController} {page : SpotsMapViewController} (hpage : m.map = some page)
    (hlisting : page.listing = true) :
    (step m (.didGetDocuments (some snapshots))).isSome = true := by
  obtain ⟨spots, hmapM, -⟩ := h.mapM hlist
  simp [step, hpage, stepMap, hlisting, SpotsMapViewController.didGetDocuments, hmapM]

end

/-- The map after rebuilds of any number, in any state and with any failures: its listing
does not trap, and whatever else happens on the page, each Spots document is on the map
once, as the rebuild that touched it last has written it. -/
theorem map_of_rebuilds {ι : Type*} [DecidableEq ι] {o : ι → Outcomes} {user : ι → User}
    {count : ι → ℤ} {s t : Shared Firestore ι Rebuild} {es : List (ι × TaiwanSpots.Event)}
    {snapshots : List (String × Dictionary)}
    (hempty : ∀ id, s.store.lookup ⟨.spots, id⟩ = none)
    (hp : ∀ i, apiButtonDidTap (user i) (count i) = some (s.process i))
    (hr : run (rebuilds o) s es = some t) (hlist : snapshots.Perm (t.store.documents .spots)) :
    (∀ first m page, run step .viewDidLoad first = some m → m.map = some page →
      page.listing = true → (step m (.didGetDocuments (some snapshots))).isSome = true) ∧
    ∀ first later m,
      run step .viewDidLoad (first ++ .didGetDocuments (some snapshots) :: later) = some m →
      ∃ page, m.map = some page ∧ Maps t.store page ∧
        ∀ point ∈ page.annotations, ∃ id, Holds t.store id point.spot ∧
          LastEvent (rebuilds o) (Touches o ⟨.spots, id⟩) (Writes o count id point.spot) s es := by
  have hreadable := run_readable hempty hp hr
  have hstored : Stored t.store := fun id data hdoc => by
    obtain ⟨spot, -, href, rfl, -⟩ := hreadable.documents id data hdoc
    exact ⟨spot, ⟨href, hdoc⟩, rfl⟩
  refine ⟨fun first m page _ hpage hlisting => hstored.step_isSome hlist hpage hlisting,
    fun first later m hm => ?_⟩
  obtain ⟨page, hpage, hmaps⟩ := hstored.maps hlist hm
  refine ⟨page, hpage, hmaps, fun point hmem => ?_⟩
  obtain ⟨id, hholds⟩ := (hmaps.2 point.spot).mp ⟨point, hmem, rfl⟩
  obtain ⟨spot, -, -, hdata, hlast⟩ := hreadable.documents id _ hholds.2
  rw [← Spot.dictionary_injective hdata] at hlast
  exact ⟨id, hholds, hlast⟩

/-- The page opens the map and lists what two rebuilds have left. -/
theorem map_of_rebuilds_sample :
    ∃ t m page, run (rebuilds sampleFeeds) sampleEmpty sampleReplacement = some t ∧
      run step .viewDidLoad [.segmentControlDidChanged 1,
        .didGetDocuments (some (t.store.documents .spots))] = some m ∧
      m.map = some page ∧ Maps t.store page ∧
      ∃ point ∈ page.annotations, point.spot = sampleSpot "c" (some "臺南市") := by
  have h := @map_of_rebuilds Bool _ sampleFeeds (fun _ => sampleAdmin) (fun _ => 1) sampleEmpty _
    sampleReplacement _ (fun _ => rfl) (fun _ => rfl) rfl (List.Perm.refl _)
  obtain ⟨page, hpage, hmaps, -⟩ := h.2 [.segmentControlDidChanged 1] [] _ rfl
  exact ⟨_, _, page, rfl, rfl, hpage, hmaps, (hmaps.2 _).mpr ⟨"c", rfl, rfl⟩⟩

section
variable {db : Firestore} {spots : List Spot}

/-- What the page of a city displays after the download of `spots`. -/
def shown (spots : List Spot) (c : CityEnum) : List Spot :=
  (spots.filter fun s => s.cityEnum = some c).map (lastEntry spots)

theorem getLast?_lastEntry {spot : Spot} (hmem : spot ∈ spots)
    (hcity : spot.cityEnum.isSome = true) :
    (spots.filter fun s => s.cityEnum.isSome ∧ s.id = spot.id).getLast? =
      some (lastEntry spots spot) := by
  have hne : spots.filter (fun s => s.cityEnum.isSome ∧ s.id = spot.id) ≠ [] :=
    List.ne_nil_of_mem (List.mem_filter.mpr ⟨hmem, by simp [hcity]⟩)
  rw [lastEntry, List.getLast?_eq_some_getLast hne, Option.getD_some]

theorem id_lastEntry {spot : Spot} (hmem : spot ∈ spots) (hcity : spot.cityEnum.isSome = true) :
    (lastEntry spots spot).id = spot.id := by
  have hlast := List.mem_of_getLast? (getLast?_lastEntry hmem hcity)
  simp only [List.mem_filter, decide_eq_true_eq] at hlast
  exact hlast.2.2

/-- What is stored is the last entry with its id, and the page of its city displays it. -/
theorem lookup_iff_shown (h : Rebuilt db spots) (spot : Spot) :
    db.lookup ⟨.spots, spot.id⟩ = some spot.dictionary ↔ ∃ c, spot ∈ shown spots c := by
  simp only [shown, List.mem_map, List.mem_filter, decide_eq_true_eq]
  rw [h.spot_last]
  constructor
  · intro hdoc
    obtain ⟨last, hlast, hdata⟩ := Option.map_eq_some_iff.mp hdoc
    obtain rfl := Spot.dictionary_injective hdata
    have hmem := List.mem_of_getLast? hlast
    simp only [List.mem_filter, decide_eq_true_eq] at hmem
    obtain ⟨c, hc⟩ := Option.isSome_iff_exists.mp hmem.2.1
    exact ⟨c, last, ⟨hmem.1, hc⟩,
      Option.some.inj ((getLast?_lastEntry hmem.1 hmem.2.1).symm.trans hlast)⟩
  · rintro ⟨c, s, ⟨hmem, hc⟩, rfl⟩
    have hcity : s.cityEnum.isSome = true := by simp [hc]
    rw [id_lastEntry hmem hcity, getLast?_lastEntry hmem hcity, Option.map_some]

/-- With valid ids every Spots document is the spot that its own ID names. -/
theorem holds_of_rebuilt (h : Rebuilt db spots) (hids : ValidIDs spots) {id : String}
    {data : Dictionary} (hdoc : db.lookup ⟨.spots, id⟩ = some data) :
    ∃ spot, spot.id = id ∧ Holds db id spot ∧ data = spot.dictionary := by
  have hlookup := (h.spot_last id).symm.trans hdoc
  obtain ⟨last, hlast, rfl⟩ := Option.map_eq_some_iff.mp hlookup
  have hmem := List.mem_of_getLast? hlast
  simp only [List.mem_filter, decide_eq_true_eq] at hmem
  obtain ⟨hspot, hcity, rfl⟩ := hmem
  exact ⟨last, rfl, ⟨document_of_valid (hids last hspot hcity), hdoc⟩, rfl⟩

theorem stored_of_rebuilt (h : Rebuilt db spots) (hids : ValidIDs spots) : Stored db := by
  intro id data hdoc
  obtain ⟨spot, -, hholds, hdata⟩ := holds_of_rebuilt h hids hdoc
  exact ⟨spot, hholds, hdata⟩

theorem holds_iff_shown (h : Rebuilt db spots) (hids : ValidIDs spots) (spot : Spot) :
    (∃ id, Holds db id spot) ↔ ∃ c, spot ∈ shown spots c := by
  rw [← lookup_iff_shown h]
  constructor
  · rintro ⟨id, -, hdoc⟩
    obtain ⟨spot', rfl, -, hdata⟩ := holds_of_rebuilt h hids hdoc
    obtain rfl := Spot.dictionary_injective hdata
    exact hdoc
  · intro hdoc
    obtain ⟨spot', -, hholds, hdata⟩ := holds_of_rebuilt h hids hdoc
    obtain rfl := Spot.dictionary_injective hdata
    exact ⟨spot.id, hholds⟩

end

/-- After a rebuild in which everything succeeds, and whose ids are IDs that a document can
have, the map and the pages of the cities show the same spots. The map has one point for
each id of the download. The page of a city displays a spot for every entry of the city. -/
theorem map_and_cities_agree {o : Outcomes} {user : User} {count : ℤ} {db : Firestore}
    {spots : List Spot} {p : Rebuild} {es : List TaiwanSpots.Event} {t : Firestore × Rebuild}
    {snapshots : List (String × Dictionary)} {first later : List Event}
    {s : SpotsViewController} (hdb : NamedByID db) (ho : o.AllSucceed)
    (hd : getTaiwanSpots count o.data = .completed spots) (hids : ValidIDs spots)
    (hp : apiButtonDidTap user count = some p)
    (hr : run (TaiwanSpots.step o) (db, p) es = some t) (hf : t.2.Finished)
    (hlist : snapshots.Perm (t.1.documents .spots))
    (hs : run step .viewDidLoad (first ++ .didGetDocuments (some snapshots) :: later) = some s) :
    (∀ c, CityPage.Displays t.1 (idsOf c spots) (shown spots c)) ∧
    ∃ page, s.map = some page ∧
      (page.annotations.map fun point => point.spot.id).Nodup ∧
      (∀ id, (∃ point ∈ page.annotations, point.spot.id = id) ↔
        ∃ c, id ∈ idsOf c spots) ∧
      ∀ spot, (∃ point ∈ page.annotations, point.spot = spot) ↔
        ∃ c, spot ∈ shown spots c := by
  have halone := run_agree_sequential hp hr hf
  have hrebuilt := rebuilt_of_agree ho hdb hd hids halone
  obtain ⟨page, hpage, hnodup, hspots⟩ := (stored_of_rebuilt hrebuilt hids).maps hlist hs
  simp only [holds_iff_shown hrebuilt hids] at hspots
  refine ⟨(indexed_of_agree ho hdb.untrapped hd hids halone).displays, page, hpage, ?_,
    fun id => ?_, hspots⟩
  · refine List.Nodup.of_map (Collection.document .spots) ?_
    rwa [List.map_map]
  constructor
  · rintro ⟨point, hmem, rfl⟩
    obtain ⟨c, hc⟩ := (hspots point.spot).mp ⟨point, hmem, rfl⟩
    obtain ⟨spot, hspot, hlast⟩ := List.mem_map.mp hc
    obtain ⟨hspot, hcity⟩ := List.mem_filter.mp hspot
    rw [decide_eq_true_eq] at hcity
    refine ⟨c, mem_idsOf.mpr ⟨spot, hspot, hcity, ?_⟩⟩
    rw [← hlast, id_lastEntry hspot (by simp [hcity])]
  · rintro ⟨c, hid⟩
    obtain ⟨spot, hmem, hcity, rfl⟩ := mem_idsOf.mp hid
    obtain ⟨point, hann, hlast⟩ := (hspots (lastEntry spots spot)).mpr
      ⟨c, List.mem_map_of_mem (List.mem_filter.mpr ⟨hmem, by simpa using hcity⟩)⟩
    exact ⟨point, hann, by rw [hlast, id_lastEntry hmem (by simp [hcity])]⟩

/-- One spot on the map for two entries of the feed, and one on the page of each city. -/
theorem map_and_cities_agree_sample :
    ∃ t s page, run (TaiwanSpots.step (sampleFeedOutcomes sampleTwins))
        (∅, ⟨3, .removeSpots, ⟨0, 0⟩, []⟩) sampleFeedEvents = some t ∧
      run step .viewDidLoad [.segmentControlDidChanged 1,
        .didGetDocuments (some (t.1.documents .spots))] = some s ∧
      s.map = some page ∧ ∀ spot, (∃ point ∈ page.annotations, point.spot = spot) ↔
        ∃ c, spot ∈ shown [sampleSpot "a" (some "臺東縣"), sampleSpot "b" (some ""),
          sampleSpot "a" (some "臺南市")] c := by
  have h := @map_and_cities_agree (sampleFeedOutcomes sampleTwins) sampleAdmin 3 ∅
    [sampleSpot "a" (some "臺東縣"), sampleSpot "b" (some ""), sampleSpot "a" (some "臺南市")] _
    sampleFeedEvents _ _ [.segmentControlDidChanged 1] [] _ nofun ⟨rfl, rfl, fun _ => rfl⟩ rfl
    (by decide) rfl rfl ⟨.inl rfl, rfl⟩ (List.Perm.refl _) rfl
  obtain ⟨page, hpage, -, -, hspots⟩ := h.2
  exact ⟨_, _, page, rfl, rfl, hpage, hspots⟩

end TaiwanSpots.MapPage
