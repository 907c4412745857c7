import TaiwanSpots.RebuildOutcome

/-!
# The city index over feeds that repeat an id

The loop of `postSpots` writes one Spots document for each path that its ids are, so that
the last occurrence of a document stays, and appends the id to the list of a city at every
occurrence. The two collections fit together exactly for the feeds in which no id is filed
twice and no document under two cities; an id that leads to no document stops the loop, and
the cities are not written.
-/
namespace TaiwanSpots
open DocumentStore

/-- The ids that the Cities document `name` lists. -/
def cityIds (db : Firestore) (name : String) : List String :=
  ((db.lookup ⟨.cities, name⟩).bind fun doc => doc.strings "cityIds").getD []

/-- The city that the Spots document of an id records. -/
def recordedCity (db : Firestore) (id : String) : Option String :=
  (db.spotDocument id).bind fun doc => doc.string "city"

/-- The spots of a feed that are filed under a city. -/
def filedSpots (spots : List Spot) : List Spot := spots.filter fun s => s.cityEnum.isSome

/-- The Cities documents are a partition, by city, of the ids under which spots are filed. -/
structure Partitioned (db : Firestore) (spots : List Spot) : Prop where
  within : ∀ name, (cityIds db name).Nodup
  across : ∀ name name' id, id ∈ cityIds db name → id ∈ cityIds db name' → name = name'
  filed : ∀ s ∈ filedSpots spots, ∀ name,
    s.id ∈ cityIds db name ↔ recordedCity db s.id = some name

theorem cityIds_congr {db db' : Firestore} (h : Agree db db') : cityIds db = cityIds db' := by
  funext name
  rw [cityIds, cityIds, h]

theorem recordedCity_congr {db db' : Firestore} (h : Agree db db') :
    recordedCity db = recordedCity db' := by
  funext id
  rw [recordedCity, recordedCity, Firestore.spotDocument, Firestore.spotDocument, funext h]

theorem Partitioned.of_agree {db db' : Firestore} {spots : List Spot}
    (hdb : Partitioned db spots) (h : Agree db db') : Partitioned db' spots := by
  obtain ⟨hwithin, hacross, hfiled⟩ := hdb
  rw [cityIds_congr h] at hwithin hacross hfiled
  rw [recordedCity_congr h] at hfiled
  exact ⟨hwithin, hacross, hfiled⟩

theorem mem_filedSpots {spots : List Spot} {s : Spot} :
    s ∈ filedSpots spots ↔ s ∈ spots ∧ ∃ c, s.cityEnum = some c := by
  rw [filedSpots, List.mem_filter, Option.isSome_iff_exists]

theorem idsOf_eq_filedSpots (c : CityEnum) (spots : List Spot) :
    idsOf c spots = ((filedSpots spots).filter fun s => s.cityEnum = some c).map Spot.id := by
  rw [idsOf, filedSpots, List.filter_filter]
  congr 1
  apply List.filter_congr
  intro s _
  by_cases h : s.cityEnum = some c <;> simp [h]

theorem idsOf_sublist (c : CityEnum) (spots : List Spot) :
    (idsOf c spots).Sublist ((filedSpots spots).map Spot.id) := by
  rw [idsOf_eq_filedSpots]
  exact List.filter_sublist.map Spot.id

theorem city_of_cityEnum {s : Spot} {c : CityEnum} (h : s.cityEnum = some c) :
    s.city = some c.rawValue := by
  obtain ⟨city, hcity, hc⟩ := Option.bind_eq_some_iff.mp h
  rw [hcity, CityEnum.ofRawValue_eq_some.mp hc]

/-! What the import leaves in two empty collections, unless a path raises. -/

theorem cityIds_updataSpotsAPI {fails : Label → Bool} {db : Firestore}
    (hf : ∀ l, fails l = false) (hempty : ∀ name, db.lookup ⟨.cities, name⟩ = none)
    {spots : List Spot} (hres : Resolves spots) (c : CityEnum) :
    cityIds (settle fails db (updataSpotsAPI spots).requests) c.rawValue = idsOf c spots := by
  rw [cityIds, lookup_updataSpotsAPI_city _ _ hres, hempty, hf]
  by_cases hn : idsOf c spots = [] <;> simp [hn]

theorem cityIds_updataSpotsAPI_of_ne {fails : Label → Bool} {db : Firestore}
    (hempty : ∀ name, db.lookup ⟨.cities, name⟩ = none) (spots : List Spot) {name : String}
    (hne : ∀ c : CityEnum, c.rawValue ≠ name) :
    cityIds (settle fails db (updataSpotsAPI spots).requests) name = [] := by
  have href : ∀ c : CityEnum, (⟨.cities, name⟩ : DocumentReference) ≠ ⟨.cities, c.rawValue⟩ :=
    fun c heq => hne c (congrArg DocumentReference.documentID heq).symm
  rw [cityIds, lookup_updataSpotsAPI_of_ne fails db spots (by simp [Collection.root]) href, hempty]
  simp

theorem mem_cityIds_updataSpotsAPI {fails : Label → Bool} {db : Firestore}
    (hf : ∀ l, fails l = false) (hempty : ∀ name, db.lookup ⟨.cities, name⟩ = none)
    {spots : List Spot} (hres : Resolves spots) {name id : String} :
    id ∈ cityIds (settle fails db (updataSpotsAPI spots).requests) name ↔
      ∃ c : CityEnum, c.rawValue = name ∧ id ∈ idsOf c spots := by
  by_cases hc : ∃ c : CityEnum, c.rawValue = name
  · obtain ⟨c, rfl⟩ := hc
    rw [cityIds_updataSpotsAPI hf hempty hres]
    constructor
    · exact fun h => ⟨c, rfl, h⟩
    · rintro ⟨c', heq, h⟩
      rwa [CityEnum.rawValue_injective heq] at h
  · push Not at hc
    rw [cityIds_updataSpotsAPI_of_ne hempty spots hc]
    exact iff_of_false List.not_mem_nil fun ⟨c, heq, _⟩ => hc c heq

/-- The city on record is that of the last occurrence of the document. -/
theorem recordedCity_updataSpotsAPI {fails : Label → Bool} {db : Firestore}
    (hf : ∀ l, fails l = false)
    (hempty : ∀ ref : DocumentReference, ref.collection.root = .spots → db.lookup ref = none)
    {spots : List Spot} (hres : Resolves spots) {id : String} {ref : DocumentReference}
    (href : Collection.spots.document id = some ref) :
    recordedCity (settle fails db (updataSpotsAPI spots).requests) id =
      ((filedSpots spots).filter fun s =>
        Collection.spots.document s.id = some ref).getLast?.bind Spot.city := by
  have hroot := root_of_document href
  have hlast : lastWritten fails ref spots = ((filedSpots spots).filter fun s =>
      Collection.spots.document s.id = some ref).getLast? := by
    rw [lastWritten_of_succeed hf, filedSpots, List.filter_filter]
    congr 1
    apply List.filter_congr
    intro s _
    rw [Bool.decide_and, Bool.decide_coe, Bool.and_comm]
  rw [recordedCity, Firestore.spotDocument, href, Option.bind_some,
    lookup_updataSpotsAPI_spots _ _ hres hroot, hlast, hempty ref hroot]
  cases ((filedSpots spots).filter fun s =>
    Collection.spots.document s.id = some ref).getLast? <;> simp

/-- The city on record is that of some occurrence of the document. -/
theorem exists_recordedCity {fails : Label → Bool} {db : Firestore}
    (hf : ∀ l, fails l = false)
    (hempty : ∀ ref : DocumentReference, ref.collection.root = .spots → db.lookup ref = none)
    {spots : List Spot} (hres : Resolves spots) {s : Spot} (hs : s ∈ filedSpots spots) :
    ∃ s' ∈ filedSpots spots, Collection.spots.document s'.id = Collection.spots.document s.id ∧
      recordedCity (settle fails db (updataSpotsAPI spots).requests) s.id = s'.city := by
  obtain ⟨hmem, c, hc⟩ := mem_filedSpots.mp hs
  obtain ⟨ref, href⟩ := Option.isSome_iff_exists.mp (hres s hmem (by simp [hc]))
  have hm : s ∈ (filedSpots spots).filter fun s => Collection.spots.document s.id = some ref := by
    simp [hs, href]
  obtain ⟨last, hlast⟩ := Option.isSome_iff_exists.mp
    (List.getLast?_isSome.mpr (List.ne_nil_of_mem hm))
  obtain ⟨hl, hdoc⟩ := List.mem_filter.mp (List.mem_of_getLast? hlast)
  refine ⟨last, hl, ?_, ?_⟩
  · rw [href]
    simpa using hdoc
  · rw [recordedCity_updataSpotsAPI hf hempty hres href, hlast, Option.bind_some]

/-- The ids that are filed lead to documents, none of them is filed twice, and no document
under two cities. -/
structure FiledApart (spots : List Spot) : Prop where
  resolves : Resolves spots
  nodup : ((filedSpots spots).map Spot.id).Nodup
  same_city : ∀ s ∈ filedSpots spots, ∀ s' ∈ filedSpots spots,
    Collection.spots.document s.id = Collection.spots.document s'.id → s.cityEnum = s'.cityEnum

theorem FiledApart.partitioned {fails : Label → Bool} {db : Firestore} {spots : List Spot}
    (h : FiledApart spots) (hf : ∀ l, fails l = false)
    (hspots : ∀ ref : DocumentReference, ref.collection.root = .spots → db.lookup ref = none)
    (hcities : ∀ name, db.lookup ⟨.cities, name⟩ = none) :
    Partitioned (settle fails db (updataSpotsAPI spots).requests) spots := by
  obtain ⟨hres, hnodup, hsame⟩ := h
  have honly : ∀ s ∈ spots, ∀ c, s.cityEnum = some c → ∀ c', s.id ∈ idsOf c' spots → c' = c := by
    intro s hmem c hc c' hid
    obtain ⟨s', hmem', hc', hid'⟩ := mem_idsOf.mp hid
    obtain rfl : s' = s := List.inj_on_of_nodup_map hnodup (mem_filedSpots.mpr ⟨hmem', c', hc'⟩)
      (mem_filedSpots.mpr ⟨hmem, c, hc⟩) hid'
    exact Option.some.inj (hc'.symm.trans hc)
  refine ⟨fun name => ?_, fun name name' id h h' => ?_, fun s hs name => ?_⟩
  · by_cases hc : ∃ c : CityEnum, c.rawValue = name
    · obtain ⟨c, rfl⟩ := hc
      rw [cityIds_updataSpotsAPI hf hcities hres]
      exact hnodup.sublist (idsOf_sublist c spots)
    · push Not at hc
      rw [cityIds_updataSpotsAPI_of_ne hcities spots hc]
      exact List.nodup_nil
  · obtain ⟨c, rfl, hid⟩ := (mem_cityIds_updataSpotsAPI hf hcities hres).mp h
    obtain ⟨c', rfl, hid'⟩ := (mem_cityIds_updataSpotsAPI hf hcities hres).mp h'
    obtain ⟨s, hmem, hc, rfl⟩ := mem_idsOf.mp hid
    rw [honly s hmem c hc c' hid']
  · obtain ⟨hmem, c, hc⟩ := mem_filedSpots.mp hs
    obtain ⟨s', hs', hdoc, hrecorded⟩ := exists_recordedCity hf hspots hres hs
    have hcity : s'.city = some c.rawValue :=
      city_of_cityEnum ((hsame s' hs' s hs hdoc).trans hc)
    rw [mem_cityIds_updataSpotsAPI hf hcities hres, hrecorded, hcity, Option.some.injEq]
    constructor
    · rintro ⟨c', rfl, hid⟩
      rw [honly s hmem c hc c' hid]
    · rintro rfl
      exact ⟨c, rfl, mem_idsOf.mpr ⟨s, hmem, hc, rfl⟩⟩

/-- Two occurrences of an id are listed twice in one city, or once in each of two; two
cities of one document cannot both be on record. -/
theorem filedApart_of_partitioned {fails : Label → Bool} {db : Firestore}
    (hf : ∀ l, fails l = false) (hcities : ∀ name, db.lookup ⟨.cities, name⟩ = none)
    {spots : List Spot} (hres : Resolves spots)
    (h : Partitioned (settle fails db (updataSpotsAPI spots).requests) spots) :
    FiledApart spots := by
  have hlisted : ∀ s ∈ filedSpots spots, ∀ c, s.cityEnum = some c →
      s.id ∈ cityIds (settle fails db (updataSpotsAPI spots).requests) c.rawValue := by
    intro s hs c hc
    rw [cityIds_updataSpotsAPI hf hcities hres]
    exact mem_idsOf.mpr ⟨s, (mem_filedSpots.mp hs).1, hc, rfl⟩
  refine ⟨hres, ?_, fun s hs s' hs' hdoc => ?_⟩
  · rw [List.Nodup, List.pairwise_map, List.pairwise_iff_forall_sublist]
    intro s s' hsub heq
    have hs : s ∈ filedSpots spots := hsub.subset (by simp)
    have hs' : s' ∈ filedSpots spots := hsub.subset (by simp)
    obtain ⟨-, c, hc⟩ := mem_filedSpots.mp hs
    obtain ⟨-, c', hc'⟩ := mem_filedSpots.mp hs'
    obtain rfl := CityEnum.rawValue_injective
      (h.across _ _ _ (hlisted s hs c hc) (heq ▸ hlisted s' hs' c' hc'))
    have htwice : [s.id, s'.id].Sublist (idsOf c spots) := by
      have hkept : ([s, s'].filter fun s => s.cityEnum = some c) = [s, s'] := by simp [hc, hc']
      rw [idsOf_eq_filedSpots]
      simpa [hkept] using (hsub.filter fun s => decide (s.cityEnum = some c)).map Spot.id
    have hwithin := h.within c.rawValue
    rw [cityIds_updataSpotsAPI hf hcities hres] at hwithin
    have hpair := hwithin.sublist htwice
    simp [heq] at hpair
  · obtain ⟨-, c, hc⟩ := mem_filedSpots.mp hs
    obtain ⟨-, c', hc'⟩ := mem_filedSpots.mp hs'
    have hrecorded := (h.filed s hs c.rawValue).mp (hlisted s hs c hc)
    have hrecorded' := (h.filed s' hs' c'.rawValue).mp (hlisted s' hs' c' hc')
    rw [recordedCity, Firestore.spotDocument, hdoc] at hrecorded
    have hraw : c.rawValue = c'.rawValue :=
      Option.some.inj (hrecorded.symm.trans hrecorded')
    rw [hc, hc', CityEnum.rawValue_injective hraw]

/-! What it leaves when a path raises. -/

/-- The first spot that is filed is written, or raises before anything is. -/
theorem head_postSpots {spots : List Spot} {s : Spot} (h : (filedSpots spots).head? = some s)
    (index : ℕ) (dict : CityEnumDict) :
    (Collection.spots.document s.id = none →
      (postSpots index spots dict).1.requests = []) ∧
    ∀ ref, Collection.spots.document s.id = some ref →
      ∃ r ∈ (postSpots index spots dict).1.requests, ref = r.key := by
  induction spots generalizing index dict with
  | nil => cases h
  | cons spot spots ih =>
    rw [postSpots]
    cases hc : spot.city.bind CityEnum.ofRawValue with
    | none =>
      rw [filedSpots, List.filter_cons_of_neg (by simp [Spot.cityEnum, hc])] at h
      exact ih h _ _
    | some c =>
      rw [filedSpots, List.filter_cons_of_pos (by simp [Spot.cityEnum, hc])] at h
      obtain rfl := Option.some.inj h
      constructor
      · intro hraise
        simp [hraise]
      · intro ref href
        simp [href]

theorem cityIds_of_raises {fails : Label → Bool} {db : Firestore}
    (hcities : ∀ name, db.lookup ⟨.cities, name⟩ = none) {spots : List Spot}
    (hres : ¬ Resolves spots) (name : String) :
    cityIds (settle fails db (updataSpotsAPI spots).requests) name = [] := by
  rw [cityIds, updataSpotsAPI_requests_of_raises hres, lookup_settle_of_untouched, hcities]
  · rfl
  · intro r hr hk
    obtain ⟨_, _, ref, _, _, href, rfl⟩ := of_mem_postSpots hr
    obtain rfl : (⟨.cities, name⟩ : DocumentReference) = ref := hk
    cases root_of_document href

/-- The document of the first spot that is filed has the city of one of the spots. -/
theorem exists_recordedCity_head {fails : Label → Bool} {db : Firestore}
    (hf : ∀ l, fails l = false) {spots : List Spot} (hres : ¬ Resolves spots) {s : Spot}
    (hhead : (filedSpots spots).head? = some s) {ref : DocumentReference}
    (href : Collection.spots.document s.id = some ref) :
    ∃ c : CityEnum, recordedCity (settle fails db (updataSpotsAPI spots).requests) s.id =
      some c.rawValue := by
  obtain ⟨r, hr, hk⟩ := (head_postSpots hhead 0 ∅).2 ref href
  obtain ⟨r', hr', -, hvalue⟩ := exists_lookup_settle (s := db) ⟨r, hr, hk, hf _⟩
  obtain ⟨s', _, _, hm, hcity, -, rfl⟩ := of_mem_postSpots hr'
  obtain ⟨c, hc⟩ := Option.isSome_iff_exists.mp hcity
  refine ⟨c, ?_⟩
  rw [recordedCity, Firestore.spotDocument, href, Option.bind_some,
    updataSpotsAPI_requests_of_raises hres, hvalue, Option.bind_some, Spot.string_city_dictionary,
    city_of_cityEnum hc]

/-- Nothing is listed, so that nothing must be on record: the first path must have raised. -/
theorem partitioned_of_trapped_iff {fails : Label → Bool} {db : Firestore}
    (hf : ∀ l, fails l = false)
    (hspots : ∀ ref : DocumentReference, ref.collection.root = .spots → db.lookup ref = none)
    (hcities : ∀ name, db.lookup ⟨.cities, name⟩ = none) {spots : List Spot}
    (hres : ¬ Resolves spots) :
    Partitioned (settle fails db (updataSpotsAPI spots).requests) spots ↔
      ∃ s, (filedSpots spots).head? = some s ∧ Collection.spots.document s.id = none := by
  have hlisted : ∀ name,
      cityIds (settle fails db (updataSpotsAPI spots).requests) name = [] :=
    cityIds_of_raises hcities hres
  constructor
  · intro h
    have hne : filedSpots spots ≠ [] := by
      intro hnil
      refine hres fun s hs hcity => absurd ?_ (List.not_mem_nil (a := s))
      rw [← hnil, filedSpots]
      exact List.mem_filter.mpr ⟨hs, hcity⟩
    obtain ⟨s, hhead⟩ := Option.isSome_iff_exists.mp (List.isSome_head?.mpr hne)
    refine ⟨s, hhead, ?_⟩
    by_contra hdoc
    obtain ⟨ref, href⟩ := Option.ne_none_iff_exists'.mp hdoc
    obtain ⟨c, hrecorded⟩ := @exists_recordedCity_head fails db hf spots hres s hhead ref href
    have hmem := (h.filed s (List.mem_of_head? hhead) c.rawValue).mpr hrecorded
    rw [hlisted] at hmem
    cases hmem
  · rintro ⟨s, hhead, hraise⟩
    have hnone := (head_postSpots hhead 0 ∅).1 hraise
    refine ⟨fun name => by rw [hlisted]; exact List.nodup_nil, fun name name' id h => ?_,
      fun s' hs' name => ?_⟩
    · rw [hlisted] at h
      cases h
    · have hrecorded : recordedCity (settle fails db (updataSpotsAPI spots).requests) s'.id =
          none := by
        rw [recordedCity, Firestore.spotDocument, updataSpotsAPI_requests_of_raises hres, hnone,
          settle_nil]
        cases href : Collection.spots.document s'.id with
        | none => rfl
        | some ref => rw [Option.bind_some, hspots ref (root_of_document href)]; rfl
      rw [hlisted, hrecorded]
      simp

/-- From empty collections, with every write succeeding and the writes to one document
handled in the order of their issue, the index is a partition exactly when the ids of the
spots that are filed under a city are pairwise different, lead to documents, and to one
document only from one city, or when the first of them raises. -/
theorem partitioned_iff {fails : Label → Bool} {db : Firestore} {spots : List Spot}
    {qs : List WriteRequest} (hf : ∀ l, fails l = false)
    (hempty : ∀ ref : DocumentReference, ref.collection.root ≠ .users → db.lookup ref = none)
    (horder : InIssueOrder (updataSpotsAPI spots).requests qs) :
    Partitioned (settle fails db qs) spots ↔ FiledApart spots ∨
      ∃ s, (filedSpots spots).head? = some s ∧ Collection.spots.document s.id = none := by
  have hspots : ∀ ref : DocumentReference, ref.collection.root = .spots → db.lookup ref = none :=
    fun ref hroot => hempty ref (by simp [hroot])
  have hcities : ∀ name, db.lookup ⟨.cities, name⟩ = none :=
    fun name => hempty _ (by simp [Collection.root])
  have hsame := horder.settle fails db
  have hiff : Partitioned (settle fails db qs) spots ↔
      Partitioned (settle fails db (updataSpotsAPI spots).requests) spots :=
    ⟨fun h => h.of_agree hsame, fun h => h.of_agree hsame.symm⟩
  rw [hiff]
  by_cases hres : Resolves spots
  · have hno : ¬ ∃ s, (filedSpots spots).head? = some s ∧
        Collection.spots.document s.id = none := by
      rintro ⟨s, hhead, hraise⟩
      obtain ⟨hmem, c, hc⟩ := mem_filedSpots.mp (List.mem_of_head? hhead)
      have hdoc := hres s hmem (by simp [hc])
      simp [hraise] at hdoc
    rw [or_iff_left hno]
    exact ⟨filedApart_of_partitioned hf hcities hres, fun h => h.partitioned hf hspots hcities⟩
  · rw [or_iff_right fun h => hres h.resolves]
    exact partitioned_of_trapped_iff hf hspots hcities hres

/-- Two spots of one city, and an id that is repeated without a city. -/
def sampleFiled : List Spot :=
  [sampleSpot "a" (some "臺東縣"), sampleSpot "b" (some "花蓮縣"), sampleSpot "b" none,
    sampleSpot "c" (some "臺東縣")]

/-- The last request is handled first. -/
theorem partitioned_iff_sample :
    Partitioned (settle (fun _ => false) ∅ (updataSpotsAPI sampleFiled).requests.reverse)
      sampleFiled :=
  (@partitioned_iff (fun _ => false) ∅ sampleFiled _ (fun _ => rfl) (fun _ _ => rfl)
    (.of_perm (List.reverse_perm _) (by decide))).mpr
      (.inl ⟨by decide, by decide, by decide⟩)

/-- A feed that files one spot under one city twice, one that files it under two, and one
that does so by two ids of its document. -/
theorem repeated_id_not_partitioned :
    ¬ Partitioned (settle (fun _ => false) ∅
        (updataSpotsAPI [sampleSpot "a" (some "臺東縣"), sampleSpot "a" (some "臺東縣")]).requests)
        [sampleSpot "a" (some "臺東縣"), sampleSpot "a" (some "臺東縣")] ∧
      ¬ Partitioned (settle (fun _ => false) ∅
        (updataSpotsAPI [sampleSpot "a" (some "臺東縣"), sampleSpot "a" (some "花蓮縣")]).requests)
        [sampleSpot "a" (some "臺東縣"), sampleSpot "a" (some "花蓮縣")] ∧
      ¬ Partitioned (settle (fun _ => false) ∅
        (updataSpotsAPI [sampleSpot "a" (some "臺東縣"), sampleSpot "a/" (some "花蓮縣")]).requests)
        [sampleSpot "a" (some "臺東縣"), sampleSpot "a/" (some "花蓮縣")] := by
  refine ⟨fun h => ?_, fun h => ?_, fun h => ?_⟩
  · exact absurd (h.within "臺東縣") (by decide)
  · exact absurd (h.across "臺東縣" "花蓮縣" "a" (by decide) (by decide)) (by decide)
  · exact absurd ((h.filed _ List.mem_cons_self "臺東縣").mp (by decide)) (by decide)

end TaiwanSpots
