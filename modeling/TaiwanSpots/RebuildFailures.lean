import TaiwanSpots.RebuildOutcome

/-!
# Cross-references between Cities and Spots under failing requests

Cities documents list spot ids, and every spot is filed under the city that its
document records. Single deletes and writes of a rebuild may fail. The grouping
dictionary is filled whether or not the write of the spot succeeds, so not
every failure pattern preserves the cross-references. The patterns that do are
characterised by what each request was for.
-/
namespace TaiwanSpots
open DocumentStore Runs

/-- The Cities document `name` lists `id`. -/
def ListedBy (db : Firestore) (name id : String) : Prop :=
  ∃ doc ids, db.lookup ⟨.cities, name⟩ = some doc ∧ doc.strings "cityIds" = some ids ∧ id ∈ ids

/-- The Cities document `name` lists an id that leads to the document. -/
def FiledAt (db : Firestore) (name : String) (ref : DocumentReference) : Prop :=
  ∃ id, ListedBy db name id ∧ Collection.spots.document id = some ref

structure CrossConsistent (db : Firestore) : Prop where
  listed : ∀ name id, ListedBy db name id → (db.spotDocument id).isSome
  filed : ∀ documentID doc, db.lookup ⟨.spots, documentID⟩ = some doc →
    ∃ city, doc.string "city" = some city ∧ FiledAt db city ⟨.spots, documentID⟩

/-- Some write to the document succeeded, or the old document was never deleted. -/
def SpotStored (fails : Label → Bool) (db : Firestore) (spots : List Spot)
    (ref : DocumentReference) : Prop :=
  (lastWritten fails ref spots).isSome ∨ (db.lookup ref).isSome ∧ ¬ Swept fails db ref

/-- The id leads to a document that was written or kept. -/
def StoredAt (fails : Label → Bool) (db : Firestore) (spots : List Spot) (id : String) : Prop :=
  ∃ ref, Collection.spots.document id = some ref ∧ SpotStored fails db spots ref

/-- The Cities document of this name is written anew. -/
def CityWritten (fails : Label → Bool) (spots : List Spot) (name : String) : Prop :=
  ∃ c : CityEnum, c.rawValue = name ∧ idsOf c spots ≠ [] ∧ fails (.setCity c) = false

/-- The old Cities document of this name stays. -/
def CityKept (fails : Label → Bool) (spots : List Spot) (name : String) : Prop :=
  fails (.deleteCity name) = true ∧ ¬ CityWritten fails spots name

/-- The failure patterns that keep the cross-references. -/
structure HarmlessFailures (fails : Label → Bool) (db : Firestore) (spots : List Spot) : Prop where
  /-- A new Cities document lists only spots that were written or kept. -/
  written_listed : ∀ c, ∀ s ∈ spots, s.cityEnum = some c → fails (.setCity c) = false →
    StoredAt fails db spots s.id
  /-- A Cities document that could not be deleted lists only such spots. -/
  kept_listed : ∀ name id, CityKept fails spots name → ListedBy db name id →
    StoredAt fails db spots id
  /-- A spot that was written finds its city written, or kept and listing it. -/
  written_filed : ∀ documentID s c, lastWritten fails ⟨.spots, documentID⟩ spots = some s →
    s.cityEnum = some c → fails (.setCity c) = false ∨
      CityKept fails spots c.rawValue ∧ FiledAt db c.rawValue ⟨.spots, documentID⟩
  /-- A spot that could not be deleted finds its old city kept, or is listed anew there. -/
  kept_filed : ∀ documentID doc city, db.lookup ⟨.spots, documentID⟩ = some doc →
    ¬ Swept fails db ⟨.spots, documentID⟩ → lastWritten fails ⟨.spots, documentID⟩ spots = none →
    doc.string "city" = some city → CityKept fails spots city ∨
      ∃ c, c.rawValue = city ∧ fails (.setCity c) = false ∧
        ∃ id ∈ idsOf c spots, Collection.spots.document id = some ⟨.spots, documentID⟩

theorem mem_of_lastWritten {fails : Label → Bool} {ref : DocumentReference} {spots : List Spot}
    {s : Spot} (h : lastWritten fails ref spots = some s) :
    s ∈ spots ∧ s.cityEnum.isSome ∧ Collection.spots.document s.id = some ref := by
  have hm := List.mem_of_getLast? h
  simp only [List.mem_map, List.mem_filter, decide_eq_true_eq, Prod.exists] at hm
  obtain ⟨s', i, ⟨hmem, hc, hid, -⟩, rfl⟩ := hm
  exact ⟨List.fst_mem_of_mem_zipIdx hmem, hc, hid⟩

/-! The documents after a rebuild that downloads `spots`. -/

section
variable {o : Outcomes} {count : ℤ} {db db' : Firestore} {spots : List Spot}
  (hs : o.spotsListed = true) (htrap : (removeSpots (db.documents .spots)).trapped = false)
  (hc : o.citiesListed = true) (hd : getTaiwanSpots count o.data = .completed spots)
  (hres : Resolves spots) (ha : Agree db' (sequential o count db))

include hs htrap hc hd hres ha

theorem isSome_spot_iff {ref : DocumentReference} (href : ref.collection.root = .spots) :
    (db'.lookup ref).isSome ↔ SpotStored o.fails db spots ref := by
  rw [ha, lookup_sequential_spots hs htrap hc hd hres href, SpotStored]
  cases hw : lastWritten o.fails ref spots with
  | some s => simp
  | none =>
    by_cases hsw : Swept o.fails db ref
    · simp [lookup_removeSpots_of_swept htrap hsw, hsw]
    · simp [lookup_removeSpots_of_not_swept hsw, hsw]

theorem isSome_spotDocument_iff (id : String) :
    (db'.spotDocument id).isSome ↔ StoredAt o.fails db spots id := by
  rw [Firestore.spotDocument, StoredAt]
  cases hpath : Collection.spots.document id with
  | none => simp
  | some ref => simpa using isSome_spot_iff hs htrap hc hd hres ha (root_of_document hpath)

theorem lookup_spot_of_written {documentID : String} {s : Spot}
    (hw : lastWritten o.fails ⟨.spots, documentID⟩ spots = some s) :
    db'.lookup ⟨.spots, documentID⟩ = some s.dictionary := by
  rw [ha, lookup_sequential_spots hs htrap hc hd hres rfl, hw]

theorem lookup_spot_of_kept {documentID : String}
    (hw : lastWritten o.fails ⟨.spots, documentID⟩ spots = none)
    (hsw : ¬ Swept o.fails db ⟨.spots, documentID⟩) :
    db'.lookup ⟨.spots, documentID⟩ = db.lookup ⟨.spots, documentID⟩ := by
  rw [ha, lookup_sequential_spots hs htrap hc hd hres rfl, hw]
  exact lookup_removeSpots_of_not_swept hsw

theorem lookup_city_of_written {c : CityEnum} (hi : idsOf c spots ≠ [])
    (hf : o.fails (.setCity c) = false) :
    db'.lookup ⟨.cities, c.rawValue⟩ = some (cityDocument (idsOf c spots)) := by
  rw [ha, lookup_sequential_city hs htrap hc hd hres, if_pos ⟨hi, hf⟩]

theorem lookup_city_of_not_written {name : String} (hw : ¬ CityWritten o.fails spots name) :
    db'.lookup ⟨.cities, name⟩ =
      if o.fails (.deleteCity name) then db.lookup ⟨.cities, name⟩ else none := by
  rw [ha]
  by_cases hn : ∃ c : CityEnum, c.rawValue = name
  · obtain ⟨c, rfl⟩ := hn
    rw [lookup_sequential_city hs htrap hc hd hres, if_neg fun h => hw ⟨c, rfl, h.1, h.2⟩]
  · push Not at hn
    rw [lookup_sequential_name hs htrap hc hd hn]

theorem listedBy_iff (name id : String) :
    ListedBy db' name id ↔
      (∃ c : CityEnum, c.rawValue = name ∧ id ∈ idsOf c spots ∧ o.fails (.setCity c) = false) ∨
      CityKept o.fails spots name ∧ ListedBy db name id := by
  by_cases hw : CityWritten o.fails spots name
  · have hk : ¬ CityKept o.fails spots name := fun h => h.2 hw
    obtain ⟨c, rfl, hi, hf⟩ := hw
    simp only [ListedBy, lookup_city_of_written hs htrap hc hd hres ha hi hf, hk, false_and,
      or_false]
    constructor
    · rintro ⟨doc, ids, hdoc, hids, hm⟩
      obtain rfl := Option.some.inj hdoc
      rw [strings_cityDocument] at hids
      obtain rfl := Option.some.inj hids
      exact ⟨c, rfl, hm, hf⟩
    · rintro ⟨c', hc', hm, -⟩
      obtain rfl := CityEnum.rawValue_injective hc'
      exact ⟨_, _, rfl, strings_cityDocument _, hm⟩
  · have hno : ¬ ∃ c : CityEnum, c.rawValue = name ∧ id ∈ idsOf c spots ∧
        o.fails (.setCity c) = false := by
      rintro ⟨c, rfl, hm, hf⟩
      exact hw ⟨c, rfl, List.ne_nil_of_mem hm, hf⟩
    simp only [hno, false_or, CityKept, hw, not_false_eq_true, and_true]
    by_cases hf : o.fails (.deleteCity name) = true
    · simp [ListedBy, lookup_city_of_not_written hs htrap hc hd hres ha hw, hf]
    · simp [ListedBy, lookup_city_of_not_written hs htrap hc hd hres ha hw, hf]

theorem filedAt_iff (name : String) (ref : DocumentReference) :
    FiledAt db' name ref ↔
      (∃ c : CityEnum, c.rawValue = name ∧ o.fails (.setCity c) = false ∧
        ∃ id ∈ idsOf c spots, Collection.spots.document id = some ref) ∨
      CityKept o.fails spots name ∧ FiledAt db name ref := by
  simp only [FiledAt, listedBy_iff hs htrap hc hd hres ha]
  constructor
  · rintro ⟨id, ⟨c, hname, hm, hf⟩ | ⟨hk, hl⟩, href⟩
    · exact .inl ⟨c, hname, hf, id, hm, href⟩
    · exact .inr ⟨hk, id, hl, href⟩
  · rintro (⟨c, hname, hf, id, hm, href⟩ | ⟨hk, id, hl, href⟩)
    · exact ⟨id, .inl ⟨c, hname, hm, hf⟩, href⟩
    · exact ⟨id, .inr ⟨hk, hl⟩, href⟩

theorem harmless_of_crossConsistent (h : CrossConsistent db') :
    HarmlessFailures o.fails db spots := by
  have hstored := isSome_spotDocument_iff hs htrap hc hd hres ha
  have hlisted := listedBy_iff hs htrap hc hd hres ha
  have hfiled := filedAt_iff hs htrap hc hd hres ha
  constructor
  · intro c s hm hcity hf
    have hl : ListedBy db' c.rawValue s.id :=
      (hlisted _ _).mpr (.inl ⟨c, rfl, mem_idsOf.mpr ⟨s, hm, hcity, rfl⟩, hf⟩)
    exact (hstored _).mp (h.listed _ _ hl)
  · intro name id hk hl
    exact (hstored _).mp (h.listed _ _ ((hlisted name id).mpr (.inr ⟨hk, hl⟩)))
  · intro documentID s c hw hcity
    obtain ⟨city, hcd, hl⟩ :=
      h.filed documentID _ (lookup_spot_of_written hs htrap hc hd hres ha hw)
    have hraw : c.rawValue = city := by
      rw [Spot.string_city_dictionary] at hcd
      rw [Spot.cityEnum, hcd] at hcity
      exact CityEnum.ofRawValue_eq_some.mp hcity
    subst hraw
    rcases (hfiled _ _).mp hl with ⟨c', hc', hf, -⟩ | hk
    · exact .inl (CityEnum.rawValue_injective hc' ▸ hf)
    · exact .inr hk
  · intro documentID doc city hdoc hsw hw hcity
    have hdoc' := hdoc
    rw [← lookup_spot_of_kept hs htrap hc hd hres ha hw hsw] at hdoc'
    obtain ⟨city', hcd, hl⟩ := h.filed documentID doc hdoc'
    obtain rfl := Option.some.inj (hcity.symm.trans hcd)
    rcases (hfiled _ _).mp hl with hnew | ⟨hk, -⟩
    · exact .inr hnew
    · exact .inl hk

theorem crossConsistent_of_harmless (hdb : CrossConsistent db)
    (h : HarmlessFailures o.fails db spots) : CrossConsistent db' := by
  have hstored := isSome_spotDocument_iff hs htrap hc hd hres ha
  have hlisted := listedBy_iff hs htrap hc hd hres ha
  have hfiled := filedAt_iff hs htrap hc hd hres ha
  constructor
  · intro name id hl
    rw [hstored]
    rcases (hlisted name id).mp hl with ⟨c, -, hm, hf⟩ | ⟨hk, hl⟩
    · obtain ⟨s, hs', hcity, rfl⟩ := mem_idsOf.mp hm
      exact h.written_listed c s hs' hcity hf
    · exact h.kept_listed name id hk hl
  · intro documentID doc hdoc
    have hst := (@isSome_spot_iff o count db db' spots hs htrap hc hd hres ha
      ⟨.spots, documentID⟩ rfl).mp (by simp [hdoc])
    cases hw : lastWritten o.fails ⟨.spots, documentID⟩ spots with
    | some s =>
      rw [lookup_spot_of_written hs htrap hc hd hres ha hw] at hdoc
      obtain rfl := Option.some.inj hdoc
      obtain ⟨hm, hsome, href⟩ := mem_of_lastWritten hw
      obtain ⟨c, hcity⟩ := Option.isSome_iff_exists.mp hsome
      have hraw : s.city = some c.rawValue := by
        obtain ⟨city, hsc, hcc⟩ := Option.bind_eq_some_iff.mp hcity
        rw [hsc, CityEnum.ofRawValue_eq_some.mp hcc]
      refine ⟨c.rawValue, by rw [Spot.string_city_dictionary, hraw], (hfiled _ _).mpr ?_⟩
      rcases h.written_filed _ s c hw hcity with hf | hk
      · exact .inl ⟨c, rfl, hf, s.id, mem_idsOf.mpr ⟨s, hm, hcity, rfl⟩, href⟩
      · exact .inr hk
    | none =>
      obtain ⟨-, hsw⟩ : (db.lookup ⟨.spots, documentID⟩).isSome ∧
          ¬ Swept o.fails db ⟨.spots, documentID⟩ := by
        simpa [SpotStored, hw] using hst
      rw [lookup_spot_of_kept hs htrap hc hd hres ha hw hsw] at hdoc
      obtain ⟨city, hcity, hl⟩ := hdb.filed documentID doc hdoc
      refine ⟨city, hcity, (hfiled _ _).mpr ?_⟩
      rcases h.kept_filed documentID doc city hdoc hsw hw hcity with hk | hnew
      · exact .inr ⟨hk, hl⟩
      · exact .inl hnew

end

/-- The exact failure patterns under which a rebuild keeps the cross-references. -/
theorem rebuild_crossConsistent_iff {o : Outcomes} {user : User} {count : ℤ} {db : Firestore}
    {entries : List Dictionary} {decoded : List Spot} {p : Rebuild} {es : List Event}
    {t : Firestore × Rebuild} (hdb : CrossConsistent db) (hs : o.spotsListed = true)
    (hc : o.citiesListed = true) (hinfo : info o.data = some entries)
    (hdecode : entries.mapM Spot.initDictionary = some decoded)
    (h1 : 1 ≤ count) (hn : count ≤ entries.length)
    (hp : apiButtonDidTap user count = some p) (hr : run (step o) (db, p) es = some t)
    (hcompleted : t.2.stage = .completed) (hsettled : t.2.inFlight = []) :
    CrossConsistent t.1 ↔ HarmlessFailures o.fails db (decoded.take count.toNat) := by
  have hd := getTaiwanSpots_of_decoded hinfo hdecode h1 hn
  obtain ⟨htrap, hres⟩ := untrapped_of_completed hd hp hr hcompleted
  have hend := run_agree_sequential hp hr ⟨.inl hcompleted, hsettled⟩
  exact ⟨harmless_of_crossConsistent hs htrap hc hd hres hend,
    crossConsistent_of_harmless hs htrap hc hd hres hend hdb⟩

theorem crossConsistent_empty : CrossConsistent ∅ := by
  constructor
  · rintro name id ⟨doc, ids, h, -⟩
    cases h
  · intro id doc h
    cases h

/-- The answers of an environment in which one spot is downloaded and the requests
with the given labels fail. -/
def sampleOutcomes (failing : List Label) : Outcomes :=
  ⟨true, true, sampleFeed [sampleEntry "a" "臺東縣"], fun l => l ∈ failing⟩

/-- The write of the spot and that of its city fail together. -/
def samplePattern : List Label := [.setSpot 0, .setCity .TTH]

def sampleFailing : List Event :=
  [.getDocuments, .notify, .getDocuments, .notify, .dataTask, .acknowledge (.setCity .TTH),
    .notify, .acknowledge (.setSpot 0)]

theorem rebuild_crossConsistent_iff_sample :
    ∃ t, run (step (sampleOutcomes samplePattern)) (∅, ⟨1, .removeSpots, ⟨0, 0⟩, []⟩)
        sampleFailing = some t ∧ CrossConsistent t.1 := by
  refine ⟨_, rfl, (@rebuild_crossConsistent_iff (sampleOutcomes samplePattern) sampleAdmin 1 ∅
    [sampleEntry "a" "臺東縣"] [sampleSpot "a" (some "臺東縣")] _ sampleFailing _
    crossConsistent_empty rfl rfl rfl rfl (by decide) (by decide) rfl rfl rfl rfl).mpr ?_⟩
  constructor
  · intro c s hs hcity hf
    obtain rfl : s = sampleSpot "a" (some "臺東縣") := List.mem_singleton.mp hs
    obtain rfl : CityEnum.TTH = c := Option.some.inj hcity
    exact absurd hf (by decide)
  · intro name id hk
    exact absurd hk.1 (by simp [sampleOutcomes, samplePattern])
  · intro documentID s c hw
    simp [lastWritten, sampleOutcomes, samplePattern] at hw
  · intro documentID doc city hdoc
    cases hdoc

/-- The write of the only spot fails, and its id is listed all the same. -/
theorem failed_write_dangles :
    ∃ (p : Rebuild) (es : List Event) (t : Firestore × Rebuild),
      CrossConsistent ∅ ∧ apiButtonDidTap sampleAdmin 1 = some p ∧
      run (step (sampleOutcomes [.setSpot 0])) (∅, p) es = some t ∧ t.2.Finished ∧
      t.2.stage = .completed ∧ ¬ CrossConsistent t.1 := by
  refine ⟨_, [.getDocuments, .notify, .getDocuments, .notify, .dataTask,
    .acknowledge (.setSpot 0), .acknowledge (.setCity .TTH), .notify], _,
    crossConsistent_empty, rfl, rfl, ⟨.inl rfl, rfl⟩, rfl, fun h => ?_⟩
  have hl := h.listed "臺東縣" "a" ⟨_, _, rfl, rfl, List.mem_cons_self⟩
  exact absurd hl (by decide)

end TaiwanSpots
