import TaiwanSpots.Rebuild

/-!
# What a rebuild leaves in the database

The sequential rebuild is evaluated document by document, with any requests
failing. A successful rebuild leaves the index and the spots of the download
and nothing else. A rebuild whose download fails has swept both collections.
-/
namespace TaiwanSpots
open DocumentStore Runs

/-- The same documents in one collection. -/
def SameCollection (c : Collection) (db db' : Firestore) : Prop :=
  ∀ id, db.lookup ⟨c, id⟩ = db'.lookup ⟨c, id⟩

/-! The sequential rebuild after both listings and a download that yields `spots`. -/

theorem sequential_eq {o : Outcomes} {count : ℤ} {db : Firestore} {spots : List Spot}
    (hs : o.spotsListed = true) (htrap : (removeSpots (db.documents .spots)).trapped = false)
    (hc : o.citiesListed = true) (hd : getTaiwanSpots count o.data = .completed spots) :
    sequential o count db =
      settle o.fails
        (settle o.fails (settle o.fails db (removeSpots (db.documents .spots)).requests)
          (removeCities (Firestore.documents
            (settle o.fails db (removeSpots (db.documents .spots)).requests) .cities)).requests)
        (updataSpotsAPI spots).requests := by
  simp only [sequential, clearCities, importSpots, hs, hc, hd, htrap, if_true, Bool.false_eq_true,
    if_false]

theorem lookup_sequential_spots {o : Outcomes} {count : ℤ} {db : Firestore} {spots : List Spot}
    (hs : o.spotsListed = true) (htrap : (removeSpots (db.documents .spots)).trapped = false)
    (hc : o.citiesListed = true) (hd : getTaiwanSpots count o.data = .completed spots)
    (hres : Resolves spots) {ref : DocumentReference} (href : ref.collection.root = .spots) :
    (sequential o count db).lookup ref =
      match lastWritten o.fails ref spots with
      | some s => some s.dictionary
      | none =>
        (settle o.fails db (removeSpots (db.documents .spots)).requests).lookup ref := by
  rw [sequential_eq hs htrap hc hd, lookup_updataSpotsAPI_spots _ _ hres href]
  cases lastWritten o.fails ref spots with
  | some s => rfl
  | none => exact lookup_removeCities_of_ne fun h => by rw [h] at href; cases href

theorem lookup_sequential_city {o : Outcomes} {count : ℤ} {db : Firestore} {spots : List Spot}
    (hs : o.spotsListed = true) (htrap : (removeSpots (db.documents .spots)).trapped = false)
    (hc : o.citiesListed = true) (hd : getTaiwanSpots count o.data = .completed spots)
    (hres : Resolves spots) (c : CityEnum) :
    (sequential o count db).lookup ⟨.cities, c.rawValue⟩ =
      if idsOf c spots ≠ [] ∧ o.fails (.setCity c) = false
      then some (cityDocument (idsOf c spots))
      else if o.fails (.deleteCity c.rawValue) then db.lookup ⟨.cities, c.rawValue⟩ else none := by
  rw [sequential_eq hs htrap hc hd, lookup_updataSpotsAPI_city _ _ hres, lookup_removeCities,
    lookup_removeSpots_of_ne (by simp [Collection.root])]

theorem lookup_sequential_name {o : Outcomes} {count : ℤ} {db : Firestore} {spots : List Spot}
    (hs : o.spotsListed = true) (htrap : (removeSpots (db.documents .spots)).trapped = false)
    (hc : o.citiesListed = true) (hd : getTaiwanSpots count o.data = .completed spots)
    {name : String} (hn : ∀ c : CityEnum, c.rawValue ≠ name) :
    (sequential o count db).lookup ⟨.cities, name⟩ =
      if o.fails (.deleteCity name) then db.lookup ⟨.cities, name⟩ else none := by
  have hne : ∀ c : CityEnum, (⟨.cities, name⟩ : DocumentReference) ≠ ⟨.cities, c.rawValue⟩ :=
    fun c h => hn c (congrArg DocumentReference.documentID h).symm
  rw [sequential_eq hs htrap hc hd,
    lookup_updataSpotsAPI_of_ne _ _ _ (by simp [Collection.root]) hne, lookup_removeCities,
    lookup_removeSpots_of_ne (by simp [Collection.root])]

/-! The download. -/

theorem mapM_take {α β : Type*} {f : α → Option β} {xs : List α} {ys : List β}
    (h : xs.mapM f = some ys) (n : ℕ) : (xs.take n).mapM f = some (ys.take n) := by
  rw [mapM_eq_some_iff] at h ⊢
  rw [List.map_take, h, List.map_take]

/-- In range, the slice is the first `count` entries. -/
theorem slice_of_range {count : ℤ} {entries : List Dictionary} (h1 : 1 ≤ count)
    (hn : count ≤ entries.length) : slice entries count = some (entries.take count.toNat) := by
  have hmin : count ≠ Int.minValue := by simp only [Int.minValue]; omega
  rw [slice, if_neg hmin, if_neg (by omega), if_neg (by omega)]

/-- In range, `getTaiwanSpots` hands on the first `count` entries if they decode. -/
theorem getTaiwanSpots_of_take {count : ℤ} {data : Option Body} {entries : List Dictionary}
    {spots : List Spot} (hi : info data = some entries) (h1 : 1 ≤ count)
    (hn : count ≤ entries.length)
    (hd : (entries.take count.toNat).mapM Spot.initDictionary = some spots) :
    getTaiwanSpots count data = .completed spots := by
  simp only [getTaiwanSpots, hi, slice_of_range h1 hn, Option.bind_some, hd]

theorem getTaiwanSpots_of_decoded {count : ℤ} {data : Option Body} {entries : List Dictionary}
    {decoded : List Spot} (hi : info data = some entries)
    (hd : entries.mapM Spot.initDictionary = some decoded) (h1 : 1 ≤ count)
    (hn : count ≤ entries.length) :
    getTaiwanSpots count data = .completed (decoded.take count.toNat) :=
  getTaiwanSpots_of_take hi h1 hn (mapM_take hd _)

/-- The ways in which the download step fails. An empty body is not JSON. -/
inductive DownloadFails : Option Body → Prop where
  | transport : DownloadFails none
  | notJson : DownloadFails (some .notJson)
  | notObject {value : Any} (h : value.asDictionary = none) : DownloadFails (some (.json value))
  | xmlHead {json : Dictionary} (h : json.dictionary "XML_Head" = none) :
      DownloadFails (some (.json (.dictionary json)))
  | infos {json xmlHead : Dictionary} (hx : json.dictionary "XML_Head" = some xmlHead)
      (h : xmlHead.dictionary "Infos" = none) : DownloadFails (some (.json (.dictionary json)))
  | info {json xmlHead infos : Dictionary} (hx : json.dictionary "XML_Head" = some xmlHead)
      (hi : xmlHead.dictionary "Infos" = some infos) (h : infos.dictionaries "Info" = none) :
      DownloadFails (some (.json (.dictionary json)))

/-- A failed download ends in one of the early returns of `getTaiwanSpots`. -/
theorem DownloadFails.returned {data : Option Body} (h : DownloadFails data) (count : ℤ) :
    getTaiwanSpots count data = .returned := by
  have hinfo : TaiwanSpots.info data = none := by
    cases h with
    | transport => rfl
    | notJson => rfl
    | notObject h => simp [TaiwanSpots.info, h]
    | xmlHead h => simp [TaiwanSpots.info, Any.asDictionary, h]
    | infos hx h => simp [TaiwanSpots.info, Any.asDictionary, hx, h]
    | info hx hi h => simp [TaiwanSpots.info, Any.asDictionary, hx, hi, h]
  simp only [getTaiwanSpots, hinfo]

/-! Small databases and feeds on which the rebuild can be run. -/

/-- An entry of the feed, with the fields that `Spot(dictionary:)` force-casts. -/
def sampleEntry (id city : String) : Dictionary :=
  [("Id", .string id), ("Name", .string ""), ("Toldescribe", .string ""), ("Tel", .string ""),
   ("Region", .string city), ("Px", .double ⟨0⟩), ("Py", .double ⟨0⟩), ("Add", .string "")]

def sampleFeed (entries : List Dictionary) : Option Body :=
  some (.json (.dictionary [("XML_Head", .dictionary [("Infos", .dictionary
    [("Info", .array (entries.map .dictionary))])])]))

def sampleAdmin : User := ⟨"", "", "", true⟩

/-- One spot on file. -/
def sampleDatabase (id city : String) : Firestore :=
  (AList.singleton ⟨.spots, id⟩ (sampleSpot id (some city)).dictionary).insert
    ⟨.cities, city⟩ (cityDocument [id])

theorem lookup_sampleDatabase_spots (id city id' : String) :
    (sampleDatabase id city).lookup ⟨.spots, id'⟩ =
      if id' = id then some (sampleSpot id (some city)).dictionary else none := by
  rw [sampleDatabase, AList.lookup_insert_ne (by simp), lookup_singleton]
  simp

/-- Spots documents as the app writes them: the path in the field `id` leads back to the
document, as the ID of the document does. -/
def NamedByID (db : Firestore) : Prop :=
  ∀ id data, db.lookup ⟨.spots, id⟩ = some data → ∃ ids, data.string "id" = some ids ∧
    Collection.spots.document ids = some ⟨.spots, id⟩

theorem namedByID_of_eq {db : Firestore} (h : ∀ id data, db.lookup ⟨.spots, id⟩ = some data →
    ValidDocumentID id ∧ data.string "id" = some id) : NamedByID db := by
  intro id data hdoc
  obtain ⟨hvalid, hid⟩ := h id data hdoc
  exact ⟨id, hid, document_of_valid hvalid⟩

theorem namedByID_sampleDatabase {id : String} (hvalid : ValidDocumentID id) (city : String) :
    NamedByID (sampleDatabase id city) := by
  refine namedByID_of_eq fun id' data h => ?_
  rw [lookup_sampleDatabase_spots] at h
  split_ifs at h with hid
  obtain rfl := Option.some.inj h
  subst hid
  exact ⟨hvalid, Spot.string_id_dictionary _⟩

/-- The sweep of documents that are named by their IDs does not trap. -/
theorem NamedByID.untrapped {db : Firestore} (h : NamedByID db) :
    (removeSpots (db.documents .spots)).trapped = false := by
  rw [← Bool.not_eq_true, removeSpots_trapped]
  rintro ⟨⟨id, data⟩, hmem, ids, hids, hnone⟩
  obtain ⟨ids', hids', href⟩ := h id data (Firestore.mem_documents.mp hmem)
  obtain rfl : ids' = ids := Option.some.inj (hids'.symm.trans hids)
  cases hnone.symm.trans href

theorem NamedByID.swept_iff {db : Firestore} (h : NamedByID db) {fails : Label → Bool}
    {id : String} :
    Swept fails db ⟨.spots, id⟩ ↔
      (db.lookup ⟨.spots, id⟩).isSome ∧ fails (.deleteSpot id) = false := by
  constructor
  · rintro ⟨documentID, data, ids, hd, hi, href, hf⟩
    obtain ⟨ids', hi', href'⟩ := h _ _ hd
    obtain rfl : ids' = ids := Option.some.inj (hi'.symm.trans hi)
    obtain rfl : documentID = id :=
      congrArg DocumentReference.documentID (Option.some.inj (href'.symm.trans href))
    exact ⟨by simp [hd], hf⟩
  · rintro ⟨hd, hf⟩
    obtain ⟨data, hd⟩ := Option.isSome_iff_exists.mp hd
    obtain ⟨ids, hi, href⟩ := h id data hd
    exact ⟨id, data, ids, hd, hi, href, hf⟩

/-- When every delete succeeds, no Spots document survives the sweep. -/
theorem NamedByID.lookup_removeSpots {db : Firestore} (h : NamedByID db) {fails : Label → Bool}
    (hf : ∀ l, fails l = false) (id : String) :
    (settle fails db (removeSpots (db.documents .spots)).requests).lookup ⟨.spots, id⟩ =
      none := by
  by_cases hs : Swept fails db ⟨.spots, id⟩
  · exact lookup_removeSpots_of_swept h.untrapped hs
  · rw [lookup_removeSpots_of_not_swept hs]
    by_contra hne
    exact hs (h.swept_iff.mpr ⟨Option.isSome_iff_ne_none.mpr hne, hf _⟩)

/-- Without failures the last recognised spot under a document is the one written. -/
theorem lastWritten_of_succeed {fails : Label → Bool} (hf : ∀ l, fails l = false)
    (ref : DocumentReference) (spots : List Spot) :
    lastWritten fails ref spots =
      (spots.filter fun s => s.cityEnum.isSome ∧
        Collection.spots.document s.id = some ref).getLast? := by
  have hz : ∀ (n : ℕ) (xs : List Spot),
      ((xs.zipIdx n).filter fun entry => entry.1.cityEnum.isSome ∧
        Collection.spots.document entry.1.id = some ref ∧
        fails (.setSpot entry.2) = false).map Prod.fst =
      xs.filter fun s => s.cityEnum.isSome ∧ Collection.spots.document s.id = some ref := by
    intro n xs
    induction xs generalizing n with
    | nil => rfl
    | cons x xs ih =>
      rw [List.zipIdx_cons, List.filter_cons, List.filter_cons, ← ih (n + 1)]
      by_cases hx : x.cityEnum.isSome ∧ Collection.spots.document x.id = some ref <;> simp [hx, hf]
  rw [lastWritten, hz]

/-- Of the IDs that a document can have, the last recognised spot is written under each. -/
theorem filter_document_of_valid {spots : List Spot} (hids : ValidIDs spots) (id : String) :
    (spots.filter fun s => s.cityEnum.isSome ∧
      Collection.spots.document s.id = some ⟨.spots, id⟩) =
    spots.filter fun s => s.cityEnum.isSome ∧ s.id = id := by
  refine List.filter_congr fun s hs => decide_eq_decide.mpr (and_congr_right fun hcity => ?_)
  rw [document_of_valid (hids s hs hcity)]
  simp

/-- The documents after a rebuild that downloads `spots` and in which everything
succeeds, from Spots documents named by their IDs. -/
structure Rebuilt (db : Firestore) (spots : List Spot) : Prop where
  city_exists : ∀ c : CityEnum,
    (db.lookup ⟨.cities, c.rawValue⟩).isSome ↔ ∃ s ∈ spots, s.cityEnum = some c
  city_ids : ∀ (c : CityEnum) doc, db.lookup ⟨.cities, c.rawValue⟩ = some doc →
    doc.strings "cityIds" = some ((spots.filter fun s => s.cityEnum = some c).map Spot.id)
  spot_exists : ∀ id, (db.lookup ⟨.spots, id⟩).isSome ↔
    ∃ s ∈ spots, s.cityEnum.isSome ∧ s.id = id
  spot_last : ∀ id, db.lookup ⟨.spots, id⟩ =
    (spots.filter fun s => s.cityEnum.isSome ∧ s.id = id).getLast?.map Spot.dictionary
  no_other_city : ∀ name, (db.lookup ⟨.cities, name⟩).isSome → ∃ c : CityEnum, c.rawValue = name

@[simp] theorem strings_cityDocument (ids : List String) :
    (cityDocument ids).strings "cityIds" = some ids := by
  simp [cityDocument, Dictionary.strings]

theorem mem_idsOf {c : CityEnum} {spots : List Spot} {id : String} :
    id ∈ idsOf c spots ↔ ∃ s ∈ spots, s.cityEnum = some c ∧ s.id = id := by
  simp [idsOf, and_assoc]

theorem idsOf_eq_nil {c : CityEnum} {spots : List Spot} :
    idsOf c spots = [] ↔ ∀ s ∈ spots, s.cityEnum ≠ some c := by
  simp [idsOf, List.filter_eq_nil_iff]

theorem rebuilt_of_agree {o : Outcomes} {count : ℤ} {db db' : Firestore} {spots : List Spot}
    (ho : o.AllSucceed) (hdb : NamedByID db) (hd : getTaiwanSpots count o.data = .completed spots)
    (hids : ValidIDs spots) (ha : Agree db' (sequential o count db)) : Rebuilt db' spots := by
  obtain ⟨hs, hc, hf⟩ := ho
  have hspot : ∀ id, db'.lookup ⟨.spots, id⟩ =
      (spots.filter fun s => s.cityEnum.isSome ∧ s.id = id).getLast?.map Spot.dictionary := by
    intro id
    rw [ha, lookup_sequential_spots hs hdb.untrapped hc hd hids.resolves rfl,
      lastWritten_of_succeed hf, filter_document_of_valid hids, hdb.lookup_removeSpots hf]
    cases (spots.filter fun s => s.cityEnum.isSome ∧ s.id = id).getLast? <;> rfl
  have hcity : ∀ c : CityEnum, db'.lookup ⟨.cities, c.rawValue⟩ =
      if idsOf c spots = [] then none else some (cityDocument (idsOf c spots)) := by
    intro c
    rw [ha, lookup_sequential_city hs hdb.untrapped hc hd hids.resolves]
    by_cases hn : idsOf c spots = [] <;> simp [hn, hf]
  constructor
  · intro c
    rw [hcity]
    by_cases hn : idsOf c spots = []
    · simpa [hn] using idsOf_eq_nil.mp hn
    · have hex : ∃ s ∈ spots, s.cityEnum = some c := by
        by_contra hno
        push Not at hno
        exact hn (idsOf_eq_nil.mpr hno)
      simpa [hn] using hex
  · intro c doc hdoc
    rw [hcity] at hdoc
    split_ifs at hdoc with hn
    obtain rfl := Option.some.inj hdoc
    rw [strings_cityDocument, idsOf]
  · intro id
    rw [hspot, Option.isSome_map, List.getLast?_isSome]
    simp [List.filter_eq_nil_iff]
  · exact hspot
  · intro name hname
    by_contra hno
    push Not at hno
    rw [ha, lookup_sequential_name hs hdb.untrapped hc hd hno] at hname
    simp [hf] at hname

/-- A rebuild that runs alone and in which everything succeeds leaves the index
and the last spot of every id of the download, and nothing else. -/
theorem rebuild_leaves_download {o : Outcomes} {user : User} {count : ℤ} {db : Firestore}
    {entries : List Dictionary} {decoded : List Spot} {p : Rebuild} {es : List Event}
    {t : Firestore × Rebuild} (hdb : NamedByID db) (ho : o.AllSucceed)
    (hinfo : info o.data = some entries)
    (hdecode : entries.mapM Spot.initDictionary = some decoded)
    (hids : ValidIDs (decoded.take count.toNat))
    (h1 : 1 ≤ count) (hn : count ≤ entries.length)
    (hp : apiButtonDidTap user count = some p) (hr : run (step o) (db, p) es = some t)
    (hf : t.2.Finished) : Rebuilt t.1 (decoded.take count.toNat) :=
  rebuilt_of_agree ho hdb (getTaiwanSpots_of_decoded hinfo hdecode h1 hn) hids
    (run_agree_sequential hp hr hf)

/-- A feed that repeats an id and has an entry without a known city. -/
def sampleImport : Outcomes where
  spotsListed := true
  citiesListed := true
  data := sampleFeed [sampleEntry "b" "臺南市", sampleEntry "c" "", sampleEntry "b" "臺東縣",
    sampleEntry "d" "臺東縣"]
  fails := fun _ => false

def sampleImportEvents : List Event :=
  [.getDocuments, .acknowledge (.deleteSpot "a"), .notify, .getDocuments,
    .acknowledge (.deleteCity "臺東縣"), .notify, .dataTask, .acknowledge (.setSpot 3),
    .acknowledge (.setCity .TTH), .acknowledge (.setSpot 0), .acknowledge (.setCity .TNH),
    .notify, .acknowledge (.setSpot 2)]

theorem rebuild_leaves_download_sample :
    ∃ t, run (step sampleImport)
        (sampleDatabase "a" "臺東縣", ⟨4, .removeSpots, ⟨0, 0⟩, []⟩) sampleImportEvents = some t ∧
      Rebuilt t.1 [sampleSpot "b" (some "臺南市"), sampleSpot "c" (some ""),
        sampleSpot "b" (some "臺東縣"), sampleSpot "d" (some "臺東縣")] :=
  ⟨_, rfl, @rebuild_leaves_download sampleImport sampleAdmin 4 (sampleDatabase "a" "臺東縣") _ _ _
    sampleImportEvents _ (namedByID_sampleDatabase (by decide) _) ⟨rfl, rfl, fun _ => rfl⟩ rfl rfl
    (by decide) (by decide) (by decide) rfl rfl ⟨.inl rfl, rfl⟩⟩

/-- The path of an id need not be the ID of a document. -/
def sampleSlash : Outcomes := ⟨true, true, sampleFeed [sampleEntry "a/" "臺東縣"], fun _ => false⟩

/-- A document whose field `id` is no path at all. -/
def sampleNameless : Firestore := AList.singleton ⟨.spots, "a"⟩ [("id", .string "")]

/-- The only spot is written under another ID than its own. -/
theorem slashed_id_not_rebuilt :
    ∃ p es t, NamedByID ∅ ∧ sampleSlash.AllSucceed ∧
      info sampleSlash.data = some [sampleEntry "a/" "臺東縣"] ∧
      [sampleEntry "a/" "臺東縣"].mapM Spot.initDictionary =
        some [sampleSpot "a/" (some "臺東縣")] ∧
      apiButtonDidTap sampleAdmin 1 = some p ∧ run (step sampleSlash) (∅, p) es = some t ∧
      t.2.Finished ∧ ¬ Rebuilt t.1 [sampleSpot "a/" (some "臺東縣")] := by
  refine ⟨_, [.getDocuments, .notify, .getDocuments, .notify, .dataTask,
    .acknowledge (.setSpot 0), .acknowledge (.setCity .TTH), .notify], _, ?_,
    ⟨rfl, rfl, fun _ => rfl⟩, rfl, rfl, rfl, rfl, ⟨.inl rfl, rfl⟩, fun h => ?_⟩
  · intro id data hdoc
    cases hdoc
  · have hrenamed := (h.spot_exists "a").mp rfl
    simp [sampleSpot] at hrenamed

/-! A rebuild whose download fails. -/

/-- The field `id` of a listed document, if it has one, leads to a document. -/
def leads (snapshot : String × Dictionary) : Bool :=
  (snapshot.2.string "id").all fun ids => (Collection.spots.document ids).isSome

theorem removeSpots_trapped_iff_leads {snapshots : List (String × Dictionary)} :
    (removeSpots snapshots).trapped = true ↔ ∃ snapshot ∈ snapshots, leads snapshot = false := by
  rw [removeSpots_trapped]
  refine exists_congr fun snapshot => and_congr_right fun _ => ?_
  cases hids : snapshot.2.string "id" <;> simp [leads, hids]

theorem removeSpots_of_leads {snapshots : List (String × Dictionary)}
    (h : ∀ snapshot ∈ snapshots, leads snapshot = true) :
    (removeSpots snapshots).trapped = false := by
  rw [Bool.eq_false_iff, ne_eq, removeSpots_trapped_iff_leads]
  rintro ⟨snapshot, hmem, hraise⟩
  exact Bool.false_ne_true (hraise.symm.trans (h snapshot hmem))

/-- Nothing behind the first path that raises matters. -/
theorem removeSpots_takeWhile (snapshots : List (String × Dictionary)) :
    (removeSpots (snapshots.takeWhile leads)).trapped = false ∧
      (removeSpots snapshots).requests = (removeSpots (snapshots.takeWhile leads)).requests := by
  induction snapshots with
  | nil => exact ⟨rfl, rfl⟩
  | cons snapshot snapshots ih =>
    cases hids : snapshot.2.string "id" with
    | none =>
      rw [List.takeWhile_cons_of_pos (by simp [leads, hids]), removeSpots, removeSpots]
      simpa only [hids] using ih
    | some ids =>
      cases hpath : Collection.spots.document ids with
      | none =>
        rw [List.takeWhile_cons_of_neg (by simp [leads, hids, hpath]), removeSpots]
        simp [hids, hpath, removeSpots]
      | some ref =>
        rw [List.takeWhile_cons_of_pos (by simp [leads, hids, hpath]), removeSpots, removeSpots]
        simpa [hids, hpath] using ih

/-- Deletes that all succeed keep the documents that they do not name. -/
theorem lookup_settle_deletes {fails : Label → Bool} (hf : ∀ l, fails l = false)
    {rs : List WriteRequest} (hrs : ∀ r ∈ rs, r.value = none) (db : Firestore)
    (k : DocumentReference) :
    (settle fails db rs).lookup k = db.lookup k ↔ (∃ r ∈ rs, r.key = k) → db.lookup k = none := by
  by_cases hex : ∃ r ∈ rs, r.key = k
  · have hdoc := hex
    obtain ⟨r, hr, rfl⟩ := hex
    rw [lookup_settle_of_value (v := none) (fun r hr _ _ => hrs r hr)
      ⟨r, hr, rfl, hf _⟩]
    exact ⟨fun h _ => h.symm, fun h => (h hdoc).symm⟩
  · rw [lookup_settle_of_untouched fun r hr hk => absurd ⟨r, hr, hk.symm⟩ hex]
    exact iff_of_true rfl fun h => absurd h hex

theorem lookup_sequential_of_failed {o : Outcomes} {count : ℤ} {db : Firestore}
    (hs : o.spotsListed = true) (hc : o.citiesListed = true) (hd : DownloadFails o.data) :
    (∀ id, (sequential o count db).lookup ⟨.spots, id⟩ =
      (settle o.fails db (removeSpots (db.documents .spots)).requests).lookup ⟨.spots, id⟩) ∧
    ∀ name, (sequential o count db).lookup ⟨.cities, name⟩ =
      if (removeSpots (db.documents .spots)).trapped ∨ o.fails (.deleteCity name) then
        db.lookup ⟨.cities, name⟩ else none := by
  cases htrap : (removeSpots (db.documents .spots)).trapped with
  | true =>
    simp only [sequential, hs, htrap, if_true, true_or, implies_true, true_and]
    exact fun name => lookup_removeSpots_of_ne (by simp [Collection.root])
  | false =>
    simp only [sequential, clearCities, importSpots, hs, hc, hd.returned, htrap, if_true,
      Bool.false_eq_true, if_false, false_or]
    constructor
    · intro id
      rw [lookup_removeCities_of_ne (by simp)]
    · intro name
      rw [lookup_removeCities, lookup_removeSpots_of_ne (by simp [Collection.root])]

/-- A rebuild whose download fails keeps both collections exactly when none of the
documents that are listed before the first path that raises leads to a Spots document,
and there is such a path or no Cities document. -/
theorem failed_download_keeps_iff {o : Outcomes} {user : User} {count : ℤ} {db : Firestore}
    {p : Rebuild} {es : List Event} {t : Firestore × Rebuild} (ho : o.AllSucceed)
    (hd : DownloadFails o.data) (hp : apiButtonDidTap user count = some p)
    (hr : run (step o) (db, p) es = some t) (hf : t.2.Finished) :
    (SameCollection .spots t.1 db ∧ SameCollection .cities t.1 db) ↔
      (∀ snapshot ∈ (db.documents .spots).takeWhile leads, ∀ ids id,
        snapshot.2.string "id" = some ids → Collection.spots.document ids = some ⟨.spots, id⟩ →
        db.lookup ⟨.spots, id⟩ = none) ∧
      ((∃ snapshot ∈ db.documents .spots, leads snapshot = false) ∨
        ∀ name, db.lookup ⟨.cities, name⟩ = none) := by
  obtain ⟨hs, hc, hfails⟩ := ho
  have ha := run_agree_sequential hp hr hf
  obtain ⟨hspots, hcities⟩ := @lookup_sequential_of_failed o count db hs hc hd
  refine and_congr ?_ ?_
  · have hdelete : ∀ id, t.1.lookup ⟨.spots, id⟩ = db.lookup ⟨.spots, id⟩ ↔
        (∃ r ∈ (removeSpots (db.documents .spots)).requests, r.key = ⟨.spots, id⟩) →
          db.lookup ⟨.spots, id⟩ = none := by
      intro id
      rw [ha, hspots]
      refine lookup_settle_deletes hfails (fun r hr => ?_) db _
      obtain ⟨_, _, _, _, _, _, _, rfl⟩ := mem_removeSpots hr
      rfl
    obtain ⟨hgood, hsame⟩ := removeSpots_takeWhile (db.documents .spots)
    simp only [SameCollection, hdelete, hsame]
    constructor
    · intro h snapshot hsnapshot ids id hids href
      exact h id ⟨_, mem_removeSpots_of hgood hsnapshot hids href, rfl⟩
    · rintro h id ⟨r, hr, hk⟩
      obtain ⟨snapshot, hsnapshot, ids, ref, hids, href, rfl⟩ := of_mem_removeSpots hr
      obtain rfl : ref = ⟨.spots, id⟩ := hk
      exact h snapshot hsnapshot ids id hids href
  · rw [← removeSpots_trapped_iff_leads]
    cases hraise : (removeSpots (db.documents .spots)).trapped with
    | true => exact iff_of_true (fun name => by rw [ha, hcities]; simp [hraise]) (.inl rfl)
    | false =>
      simp only [Bool.false_eq_true, false_or]
      refine forall_congr' fun name => ?_
      rw [ha, hcities, hfails, hraise]
      simpa using eq_comm

/-- A database of one spot and its city, and a connection that drops. -/
def sampleDrop : Outcomes := ⟨true, true, none, fun _ => false⟩

/-- A document whose field `id` leads to no document. -/
def sampleStray : Firestore := AList.singleton ⟨.spots, "a"⟩ [("id", .string "b")]

def sampleStrayEvents : List Event :=
  [.getDocuments, .acknowledge (.deleteSpot "a"), .notify, .getDocuments, .notify, .dataTask]

theorem failed_download_keeps_iff_sample :
    ∃ t, run (step sampleDrop) (sampleStray, ⟨1, .removeSpots, ⟨0, 0⟩, []⟩) sampleStrayEvents =
        some t ∧
      SameCollection .spots t.1 sampleStray ∧ SameCollection .cities t.1 sampleStray := by
  refine ⟨_, rfl, (@failed_download_keeps_iff sampleDrop sampleAdmin 1 sampleStray _
    sampleStrayEvents _ ⟨rfl, rfl, fun _ => rfl⟩ .transport rfl rfl ⟨.inr (.inl rfl), rfl⟩).mpr
    ⟨fun snapshot hmem ids id hids href => ?_, .inr fun name => lookup_singleton _ _ _⟩⟩
  obtain rfl : snapshot = ("a", [("id", .string "b")]) :=
    List.mem_singleton.mp (List.takeWhile_subset _ hmem)
  obtain rfl : "b" = ids := Option.some.inj hids
  obtain rfl : "b" = id := congrArg DocumentReference.documentID (Option.some.inj href)
  rfl

def sampleDropEvents : List Event :=
  [.getDocuments, .acknowledge (.deleteSpot "a"), .notify, .getDocuments,
    .acknowledge (.deleteCity "臺東縣"), .notify, .dataTask]

/-- One spot is on file and the connection drops: both collections end empty. -/
theorem failed_download_destroys :
    ∃ (o : Outcomes) (p : Rebuild) (es : List Event) (t : Firestore × Rebuild),
      o.AllSucceed ∧ DownloadFails o.data ∧ apiButtonDidTap sampleAdmin 1 = some p ∧
      run (step o) (sampleDatabase "a" "臺東縣", p) es = some t ∧ t.2.Finished ∧
      ¬ SameCollection .spots t.1 (sampleDatabase "a" "臺東縣") ∧
      ¬ SameCollection .cities t.1 (sampleDatabase "a" "臺東縣") := by
  refine ⟨sampleDrop, _, sampleDropEvents, _, ⟨rfl, rfl, fun _ => rfl⟩, .transport, rfl, rfl,
    ⟨.inr (.inl rfl), rfl⟩, ?_, ?_⟩
  · intro h
    exact absurd (congrArg Option.isSome (h "a")) (by decide)
  · intro h
    exact absurd (congrArg Option.isSome (h "臺東縣")) (by decide)

end TaiwanSpots
