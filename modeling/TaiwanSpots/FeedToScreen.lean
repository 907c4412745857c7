import TaiwanSpots.RebuildOutcome
import TaiwanSpots.CityPage
import TaiwanSpots.SearchPage

/-!
# From the feed to the screen

A rebuild writes the feed under one pair of encodings, the page of the cities
and the page of a city read it back under another. Between them stands the
index: the ids of a city, one for every entry, each naming a document that holds
the last entry with this id.
-/
namespace TaiwanSpots
open DocumentStore Runs

/-- The last entry of the feed with the id of `spot` and a recognised city. -/
def lastEntry (spots : List Spot) (spot : Spot) : Spot :=
  (spots.filter fun s => s.cityEnum.isSome ∧ s.id = spot.id).getLast?.getD spot

/-- The cities of the feed and the entries of each of them, as the database holds them. -/
structure Indexed (db : Firestore) (spots : List Spot) : Prop where
  city : ∀ c : CityEnum, db.lookup ⟨.cities, c.rawValue⟩ =
    if idsOf c spots = [] then none else some (cityDocument (idsOf c spots))
  no_other_city : ∀ name, (∀ c : CityEnum, c.rawValue ≠ name) → db.lookup ⟨.cities, name⟩ = none
  spot : ∀ s ∈ spots, s.cityEnum.isSome = true →
    db.lookup ⟨.spots, s.id⟩ = some (lastEntry spots s).dictionary
  valid : ValidIDs spots

/-- A rebuild leaves the index whatever the database held before, unless a path raises. -/
theorem indexed_of_agree {o : Outcomes} {count : ℤ} {db db' : Firestore} {spots : List Spot}
    (ho : o.AllSucceed) (htrap : (removeSpots (db.documents .spots)).trapped = false)
    (hd : getTaiwanSpots count o.data = .completed spots) (hids : ValidIDs spots)
    (ha : Agree db' (sequential o count db)) : Indexed db' spots := by
  obtain ⟨hs, hc, hf⟩ := ho
  refine ⟨?_, ?_, ?_, hids⟩
  · intro c
    rw [ha, lookup_sequential_city hs htrap hc hd hids.resolves]
    by_cases hn : idsOf c spots = [] <;> simp [hn, hf]
  · intro name hname
    rw [ha, lookup_sequential_name hs htrap hc hd hname, if_neg (by simp [hf])]
  · intro s hmem hcity
    rw [ha, lookup_sequential_spots hs htrap hc hd hids.resolves rfl, lastWritten_of_succeed hf,
      filter_document_of_valid hids, lastEntry]
    cases hlast : (spots.filter fun r => r.cityEnum.isSome ∧ r.id = s.id).getLast? with
    | some last => rfl
    | none =>
      rw [List.getLast?_eq_none_iff, List.filter_eq_nil_iff] at hlast
      exact absurd (by simp [hcity]) (hlast s hmem)

/-- The id of an entry leads to the document of the last entry with this id. -/
theorem Indexed.spotDocument {db : Firestore} {spots : List Spot} (h : Indexed db spots)
    {s : Spot} (hmem : s ∈ spots) (hcity : s.cityEnum.isSome = true) :
    db.spotDocument s.id = some (lastEntry spots s).dictionary := by
  rw [Firestore.spotDocument, document_of_valid (h.valid s hmem hcity), Option.bind_some,
    h.spot s hmem hcity]

theorem Firestore.nodup_documents (db : Firestore) (c : Collection) :
    ((db.documents c).map Prod.fst).Nodup := by
  have hkeys : (db.documents c).map Prod.fst = db.keys.filterMap fun ref =>
      if ref.collection = c then some ref.documentID else none := by
    rw [Firestore.documents, AList.keys, List.keys, List.filterMap_map, List.map_filterMap]
    apply List.filterMap_congr
    intro entry _
    by_cases hc : entry.1.collection = c <;> simp [hc]
  rw [hkeys]
  refine db.keys_nodup.filterMap fun ref ref' id h h' => ?_
  obtain ⟨collection, documentID⟩ := ref
  obtain ⟨collection', documentID'⟩ := ref'
  simp only [Option.mem_def, Option.ite_none_right_eq_some, Option.some.injEq] at h h'
  simp [h, h']

/-- The tile of a city: one key, with the ids of the city. -/
def tile (spots : List Spot) (c : CityEnum) : CityEnumDict := AList.insert c (idsOf c spots) ∅

theorem Indexed.citydictionary {db : Firestore} {spots : List Spot} (h : Indexed db spots)
    {snapshot : String × Dictionary} (hmem : snapshot ∈ db.documents .cities) :
    ∃ c, CityEnum.ofRawValue snapshot.1 = some c ∧ idsOf c spots ≠ [] ∧
      citydictionary snapshot = tile spots c := by
  obtain ⟨name, data⟩ := snapshot
  have hdoc := Firestore.mem_documents.mp hmem
  by_cases hno : ∀ c : CityEnum, c.rawValue ≠ name
  · rw [h.no_other_city name hno] at hdoc
    cases hdoc
  · push Not at hno
    obtain ⟨c, rfl⟩ := hno
    rw [h.city] at hdoc
    split_ifs at hdoc with hn
    obtain rfl := Option.some.inj hdoc
    have hcity := CityEnum.ofRawValue_eq_some.mpr (rfl : c.rawValue = c.rawValue)
    exact ⟨c, hcity, hn, by simp [TaiwanSpots.citydictionary, hcity, tile]⟩

theorem map_citydictionary {spots : List Spot} {snapshots : List (String × Dictionary)}
    (h : ∀ snapshot ∈ snapshots, ∃ c, CityEnum.ofRawValue snapshot.1 = some c ∧
      idsOf c spots ≠ [] ∧ citydictionary snapshot = tile spots c) :
    snapshots.map citydictionary =
      ((snapshots.map Prod.fst).filterMap CityEnum.ofRawValue).map (tile spots) := by
  induction snapshots with
  | nil => rfl
  | cons snapshot snapshots ih =>
    obtain ⟨c, hcity, -, htile⟩ := h snapshot List.mem_cons_self
    have hrest := ih fun s hs => h s (List.mem_cons_of_mem _ hs)
    simp only [List.map_cons, List.filterMap_cons, hcity, htile, hrest]

/-- Every listing of the index becomes one tile for each city, in some order. -/
theorem Indexed.cityArray {db : Firestore} {spots : List Spot} (h : Indexed db spots)
    {snapshots : List (String × Dictionary)} (hlist : snapshots.Perm (db.documents .cities)) :
    ∃ cities : List CityEnum, cities.Nodup ∧
      (∀ c, c ∈ cities ↔ ∃ s ∈ spots, s.cityEnum = some c) ∧
      snapshots.map TaiwanSpots.citydictionary = cities.map (tile spots) := by
  have hdict : ∀ snapshot ∈ snapshots, _ :=
    fun snapshot hs => h.citydictionary (hlist.mem_iff.mp hs)
  refine ⟨(snapshots.map Prod.fst).filterMap CityEnum.ofRawValue, ?_, fun c => ?_,
    map_citydictionary hdict⟩
  · have hnames : (snapshots.map Prod.fst).Nodup :=
      (hlist.map Prod.fst).nodup_iff.mpr (db.nodup_documents .cities)
    refine hnames.filterMap fun name name' c hc hc' => ?_
    exact (CityEnum.ofRawValue_eq_some.mp hc).symm.trans (CityEnum.ofRawValue_eq_some.mp hc')
  · have hids : idsOf c spots ≠ [] ↔ ∃ s ∈ spots, s.cityEnum = some c := by
      rw [ne_eq, idsOf_eq_nil]
      push Not
      rfl
    rw [← hids]
    simp only [List.mem_filterMap, List.mem_map]
    constructor
    · rintro ⟨_, ⟨snapshot, hs, rfl⟩, hc⟩
      obtain ⟨c', hcity, hn, -⟩ := hdict snapshot hs
      obtain rfl : c' = c := Option.some.inj (hcity.symm.trans hc)
      exact hn
    · intro hn
      have hdoc : (c.rawValue, cityDocument (idsOf c spots)) ∈ db.documents .cities := by
        rw [Firestore.mem_documents, h.city, if_neg hn]
      exact ⟨c.rawValue, ⟨_, hlist.mem_iff.mpr hdoc, rfl⟩, CityEnum.ofRawValue_eq_some.mpr rfl⟩

theorem didSelectItemAt_tiles (spots : List Spot) (cities : List CityEnum) (item : ℕ) :
    SearchViewController.didSelectItemAt ⟨cities.map (tile spots), cities.length, 0⟩ item =
      cities[item]?.map fun c => some (c, idsOf c spots) := by
  have hopen : ∀ c, ((tile spots c).keys.head?.bind fun cityEnum =>
      ((tile spots c).lookup cityEnum).map fun cityIds => (cityEnum, cityIds)) =
        some (c, idsOf c spots) := by
    intro c
    have hkeys : (tile spots c).keys = [c] := rfl
    rw [hkeys, List.head?_cons, Option.bind_some, tile, AList.lookup_insert, Option.map_some]
  unfold SearchViewController.didSelectItemAt
  split_ifs with hitem
  · simp only [List.getElem?_map, Option.map_map, Function.comp_def, hopen]
  · rw [List.getElem?_eq_none (by simpa using hitem)]
    rfl

/-- The page of a city displays one spot for each entry of the feed in that city. -/
theorem Indexed.displays {db : Firestore} {spots : List Spot} (h : Indexed db spots)
    (c : CityEnum) : CityPage.Displays db (idsOf c spots)
      ((spots.filter fun s => s.cityEnum = some c).map (lastEntry spots)) := by
  apply CityPage.displays_of_decoded
  rw [idsOf, List.map_map, List.map_map]
  apply List.map_congr_left
  intro s hs
  obtain ⟨hmem, hcity⟩ := List.mem_filter.mp hs
  have hcity : s.cityEnum = some c := by simpa using hcity
  simp only [Function.comp, h.spotDocument hmem (by simp [hcity]), Option.bind_some,
    Spot.initFirestoreDictionary_dictionary]

/-- What the screens show after a rebuild that ran alone and in which everything
succeeded, if the ids are those that documents can have: a tile for every city of the feed
and for nothing else, and behind it one spot for every entry of the city, as its last
recognised entry has it. -/
theorem feed_to_screen {o : Outcomes} {user : User} {count : ℤ} {db : Firestore}
    {entries : List Dictionary} {spots : List Spot} {p : Rebuild} {es : List Event}
    {t : Firestore × Rebuild} {snapshots : List (String × Dictionary)}
    {page : SearchViewController} (ho : o.AllSucceed)
    (hlead : ∀ snapshot ∈ db.documents .spots, leads snapshot = true)
    (hinfo : info o.data = some entries) (h1 : 1 ≤ count) (hn : count ≤ entries.length)
    (hdecode : (entries.take count.toNat).mapM Spot.initDictionary = some spots)
    (hids : ValidIDs spots) (hp : apiButtonDidTap user count = some p)
    (hr : run (step o) (db, p) es = some t) (hf : t.2.Finished)
    (hlist : snapshots.Perm (t.1.documents .cities))
    (hload : SearchViewController.load snapshots = some page) :
    (∃ cities : List CityEnum, cities.Nodup ∧
      (∀ c, c ∈ cities ↔ ∃ s ∈ spots, s.cityEnum = some c) ∧
      page.cityArray = cities.map (tile spots)) ∧
    (∀ c, (∃ s ∈ spots, s.cityEnum = some c) →
      ∃ item ids, page.didSelectItemAt item = some (some (c, ids))) ∧
    ∀ item c ids, page.didSelectItemAt item = some (some (c, ids)) →
      CityPage.Displays t.1 ids
        ((spots.filter fun s => s.cityEnum = some c).map (lastEntry spots)) := by
  have hindexed : Indexed t.1 spots :=
    indexed_of_agree ho (removeSpots_of_leads hlead) (getTaiwanSpots_of_take hinfo h1 hn hdecode)
      hids (run_agree_sequential hp hr hf)
  obtain ⟨cities, hnodup, hcities, harray⟩ := hindexed.cityArray hlist
  have hlength : snapshots.length = cities.length := by
    simpa using congrArg List.length harray
  rw [SearchViewController.load_eq, harray, hlength, Option.some.injEq] at hload
  subst hload
  refine ⟨⟨cities, hnodup, hcities, rfl⟩, fun c hc => ?_, fun item c ids hopen => ?_⟩
  · obtain ⟨item, hitem⟩ := List.mem_iff_getElem?.mp ((hcities c).mpr hc)
    exact ⟨item, idsOf c spots, by rw [didSelectItemAt_tiles, hitem, Option.map_some]⟩
  · rw [didSelectItemAt_tiles] at hopen
    obtain ⟨c', -, hopen⟩ := Option.map_eq_some_iff.mp hopen
    obtain ⟨rfl, rfl⟩ := Prod.mk.inj (Option.some.inj hopen)
    exact hindexed.displays c'

/-- A feed that lists one id twice, in two cities, and an entry without a city. -/
def sampleTwins : List Dictionary :=
  [sampleEntry "a" "臺東縣", sampleEntry "b" "", sampleEntry "a" "臺南市"]

/-- The page that lists its two cities. -/
def sampleTiles : SearchViewController :=
  ⟨[AList.insert .TNH ["a"] ∅, AList.insert .TTH ["a"] ∅], 2, 0⟩

def sampleFeedOutcomes (entries : List Dictionary) : Outcomes :=
  ⟨true, true, sampleFeed entries, fun _ => false⟩

/-- The rebuild from this feed, in some order. -/
def sampleFeedEvents : List Event :=
  [.getDocuments, .notify, .getDocuments, .notify, .dataTask, .acknowledge (.setCity .TTH),
    .acknowledge (.setSpot 0), .acknowledge (.setCity .TNH), .acknowledge (.setSpot 2), .notify]

/-- The tile of the first city leads to the entry of the second. -/
theorem feed_to_screen_sample :
    ∃ t, run (step (sampleFeedOutcomes sampleTwins)) (∅, ⟨3, .removeSpots, ⟨0, 0⟩, []⟩)
        sampleFeedEvents = some t ∧
      SearchViewController.load (t.1.documents .cities) = some sampleTiles ∧
      sampleTiles.didSelectItemAt 1 = some (some (.TTH, ["a"])) ∧
      CityPage.Displays t.1 ["a"] [sampleSpot "a" (some "臺南市")] := by
  have h := @feed_to_screen (sampleFeedOutcomes sampleTwins) sampleAdmin 3 ∅ sampleTwins _ _
    sampleFeedEvents _ _ sampleTiles ⟨rfl, rfl, fun _ => rfl⟩ nofun rfl (by decide) (by decide) rfl
    (by decide) rfl rfl ⟨.inl rfl, rfl⟩ (List.Perm.refl _) rfl
  exact ⟨_, rfl, rfl, rfl, h.2.2 1 .TTH ["a"] rfl⟩

/-- Two ids of one document. -/
def sampleAliases : List Spot := [sampleSpot "a" (some "臺東縣"), sampleSpot "a/" (some "臺東縣")]

/-- The page of the city shows the second entry twice and the first one never. And a document
whose field `id` is no path ends the app before any city is listed. -/
theorem aliased_ids_not_displayed :
    (∃ entries p es t page, entries.mapM Spot.initDictionary = some sampleAliases ∧
      apiButtonDidTap sampleAdmin 2 = some p ∧
      run (step (sampleFeedOutcomes entries)) (∅, p) es = some t ∧ t.2.stage = .completed ∧
      t.2.Finished ∧ SearchViewController.load (t.1.documents .cities) = some page ∧
      page.didSelectItemAt 0 = some (some (.TTH, ["a", "a/"])) ∧
      ¬ CityPage.Displays t.1 ["a", "a/"]
        ((sampleAliases.filter fun s => s.cityEnum = some .TTH).map
          (lastEntry sampleAliases))) ∧
    ∃ p es t page, apiButtonDidTap sampleAdmin 3 = some p ∧
      run (step (sampleFeedOutcomes sampleTwins)) (sampleNameless, p) es = some t ∧
      (∀ e, step (sampleFeedOutcomes sampleTwins) t e = none) ∧
      SearchViewController.load (t.1.documents .cities) = some page ∧ page.cityArray = [] := by
  refine ⟨⟨[sampleEntry "a" "臺東縣", sampleEntry "a/" "臺東縣"], _, [.getDocuments, .notify,
    .getDocuments, .notify, .dataTask, .acknowledge (.setSpot 0), .acknowledge (.setSpot 1),
    .acknowledge (.setCity .TTH), .notify], _, _, rfl, rfl, rfl, rfl, ⟨.inl rfl, rfl⟩, rfl, rfl,
    fun h => ?_⟩, _, [.getDocuments], _, _, rfl, rfl, fun e => ?_, rfl, rfl⟩
  · obtain ⟨s, hs, hload⟩ := h ⟨none, 0, []⟩ none
    obtain rfl := Option.some.inj hs
    have hperm := (hload CityPage.sampleVisible [.didGetSpot 0 true, .didGetSpot 1 true] _
      (by decide) rfl).2 ⟨by decide, rfl⟩
    have hmem : sampleSpot "a" (some "臺東縣") ∈
        [sampleSpot "a/" (some "臺東縣"), sampleSpot "a/" (some "臺東縣")] :=
      hperm.mem_iff.mpr List.mem_cons_self
    simp [sampleSpot] at hmem
  · cases e <;> rfl

end TaiwanSpots
