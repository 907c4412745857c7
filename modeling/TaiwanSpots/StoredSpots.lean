import TaiwanSpots.OverlappingRebuilds

/-!
# The Spots documents under any number of rebuilds

A Spots document is written under the id of its spot, and the fields of a spot
are decoded by what encodes them. A document on file is therefore the one that
the last write to it has left, under the ID that its own field names.
-/
namespace TaiwanSpots
open DocumentStore Runs

section
variable {ι : Type*}

/-- The event carries out the request `r` of a rebuild. -/
def CarriesOut (o : ι → Outcomes) (r : WriteRequest) (s : Shared Firestore ι Rebuild)
    (e : ι × Event) : Prop :=
  ∃ label rest, e.2 = .acknowledge label ∧ (o e.1).fails label = false ∧
    extract (fun r => r.label = label) (s.process e.1).inFlight = some (r, rest)

/-- The event sets or deletes the document. -/
def Touches (o : ι → Outcomes) (k : DocumentReference) (s : Shared Firestore ι Rebuild)
    (e : ι × Event) : Prop :=
  ∃ r, CarriesOut o r s e ∧ r.key = k

/-- The event writes `spot`, an entry of the download of its rebuild, to the Spots
document `id`. -/
def Writes (o : ι → Outcomes) (count : ι → ℤ) (id : String) (spot : Spot)
    (s : Shared Firestore ι Rebuild) (e : ι × Event) : Prop :=
  ∃ spots index, getTaiwanSpots (count e.1) (o e.1).data = .completed spots ∧
    spots[index]? = some spot ∧
    CarriesOut o ⟨.setSpot index, ⟨.spots, id⟩, some spot.dictionary⟩ s e

theorem CarriesOut.mem {o : ι → Outcomes} {r : WriteRequest} {s : Shared Firestore ι Rebuild}
    {e : ι × Event} (h : CarriesOut o r s e) : r ∈ (s.process e.1).inFlight := by
  obtain ⟨_, _, _, _, hextract⟩ := h
  exact (mem_of_extract hextract).1

variable [DecidableEq ι]

/-- Any number of rebuilds over one database. -/
def rebuilds (o : ι → Outcomes) :
    Shared Firestore ι Rebuild → ι × Event → Option (Shared Firestore ι Rebuild) :=
  interleave fun i db p e => step (o i) (db, p) e

/-- The requests of a rebuild to Spots documents: deletes, and the entries of its
download of known cities, to the documents that their ids lead to. -/
structure Rebuild.Posts (count : ℤ) (data : Option Body) (p : Rebuild) : Prop where
  count_eq : p.count = count
  posts : ∀ r ∈ p.inFlight, r.key.collection = .spots → r.value = none ∨
    ∃ spots index spot ref, getTaiwanSpots count data = .completed spots ∧
      spots[index]? = some spot ∧ spot.cityEnum.isSome ∧
      Collection.spots.document spot.id = some ref ∧
      r = ⟨.setSpot index, ref, some spot.dictionary⟩

theorem posts_of_mem_updataSpotsAPI {spots : List Spot} {r : WriteRequest}
    (h : r ∈ (updataSpotsAPI spots).requests) (hk : r.key.collection = .spots) :
    ∃ index spot ref, spots[index]? = some spot ∧ spot.cityEnum.isSome ∧
      Collection.spots.document spot.id = some ref ∧
      r = ⟨.setSpot index, ref, some spot.dictionary⟩ := by
  rcases mem_updataSpotsAPI h with ⟨spot, index, ref, hmem, hcity, href, rfl⟩ | ⟨-, c, -, rfl⟩
  · have hspot : spots[index]? = some spot := by
      simpa using List.mem_zipIdx_iff_getElem?.mp hmem
    exact ⟨index, spot, ref, hspot, hcity, href, rfl⟩
  · cases hk

theorem step_posts {o : Outcomes} {count : ℤ} {s t : Firestore × Rebuild} {e : Event}
    (hs : s.2.Posts count o.data) (h : step o s e = some t) : t.2.Posts count o.data := by
  rcases step_cases h with ⟨-, -, -, rfl⟩ | ⟨-, -, -, rfl⟩ | ⟨-, -, -, rfl⟩ | ⟨-, -, -, rfl⟩ |
      ⟨-, -, h⟩ | ⟨label, r, rest, -, he, rfl⟩ | ⟨-, -, h⟩
  · refine ⟨hs.count_eq, fun r hr _ => .inl ?_⟩
    obtain ⟨_, _, _, _, _, _, _, rfl⟩ := mem_removeSpots hr
    rfl
  · exact ⟨hs.count_eq, hs.posts⟩
  · refine ⟨hs.count_eq, fun r hr _ => .inl ?_⟩
    obtain ⟨_, _, _, rfl⟩ := mem_removeCities.mp hr
    rfl
  · exact ⟨hs.count_eq, hs.posts⟩
  · rw [hs.count_eq] at h
    rcases h with ⟨spots, hd, rfl⟩ | ⟨-, rfl⟩ | ⟨-, rfl⟩
    · refine ⟨hs.count_eq, fun r hr hk => .inr ?_⟩
      obtain ⟨index, spot, ref, hspot⟩ := posts_of_mem_updataSpotsAPI hr hk
      exact ⟨spots, index, spot, ref, hd, hspot⟩
    · exact ⟨hs.count_eq, hs.posts⟩
    · exact ⟨hs.count_eq, hs.posts⟩
  · obtain ⟨-, hmem⟩ := mem_of_extract he
    exact ⟨hs.count_eq, fun r' hr' => hs.posts r' ((hmem r').mpr (.inr hr'))⟩
  · rcases h with ⟨-, rfl⟩ | ⟨-, rfl⟩ | ⟨-, rfl⟩ <;> exact ⟨hs.count_eq, hs.posts⟩

theorem lookup_of_carriesOut {o : ι → Outcomes} {s t : Shared Firestore ι Rebuild}
    {e : ι × Event} {r : WriteRequest} (hr : CarriesOut o r s e) (h : rebuilds o s e = some t) :
    t.store.lookup r.key = r.value := by
  obtain ⟨label, rest, he, hok, hextract⟩ := hr
  obtain ⟨store, p, hstep, rfl⟩ := interleave_eq_some.mp h
  obtain ⟨_, _, _, _, hlabel, -⟩ := extract_eq_some hextract
  have hlabel : r.label = label := by simpa using hlabel
  simp only [step, he, acknowledge, hextract] at hstep
  obtain ⟨rfl, -⟩ := Prod.mk.inj (Option.some.inj hstep)
  rw [lookup_perform, if_pos ⟨rfl, hlabel ▸ hok⟩]

theorem lookup_of_not_touches {o : ι → Outcomes} {s t : Shared Firestore ι Rebuild}
    {e : ι × Event} {k : DocumentReference} (hk : ¬ Touches o k s e)
    (h : rebuilds o s e = some t) : t.store.lookup k = s.store.lookup k := by
  obtain ⟨store, p, hstep, rfl⟩ := interleave_eq_some.mp h
  rcases step_cases hstep with ⟨-, -, -, hst⟩ | ⟨-, -, -, hst⟩ | ⟨-, -, -, hst⟩ |
      ⟨-, -, -, hst⟩ | ⟨-, -, hst⟩ | ⟨label, r, rest, he, hextract, hst⟩ | ⟨-, -, hst⟩
  · exact congrArg (fun m : Firestore × Rebuild => m.1.lookup k) hst
  · exact congrArg (fun m : Firestore × Rebuild => m.1.lookup k) hst
  · exact congrArg (fun m : Firestore × Rebuild => m.1.lookup k) hst
  · exact congrArg (fun m : Firestore × Rebuild => m.1.lookup k) hst
  · rcases hst with ⟨_, -, hst⟩ | ⟨-, hst⟩ | ⟨-, hst⟩ <;>
      exact congrArg (fun m : Firestore × Rebuild => m.1.lookup k) hst
  · obtain ⟨rfl, -⟩ := Prod.mk.inj hst
    obtain ⟨_, _, _, _, hlabel, -⟩ := extract_eq_some hextract
    have hlabel : r.label = label := by simpa using hlabel
    rw [lookup_perform, if_neg]
    rintro ⟨hkey, hok⟩
    exact hk ⟨r, ⟨label, rest, he, hlabel ▸ hok, hextract⟩, hkey.symm⟩
  · rcases hst with ⟨-, hst⟩ | ⟨-, hst⟩ | ⟨-, hst⟩ <;>
      exact congrArg (fun m : Firestore × Rebuild => m.1.lookup k) hst

/-- What holds after the events of a run from no Spots document. -/
structure Readable (o : ι → Outcomes) (count : ι → ℤ) (s : Shared Firestore ι Rebuild)
    (es : List (ι × Event)) (t : Shared Firestore ι Rebuild) : Prop where
  posts : ∀ i, (t.process i).Posts (count i) (o i).data
  documents : ∀ id data, t.store.lookup ⟨.spots, id⟩ = some data →
    ∃ spot, (∃ i spots, getTaiwanSpots (count i) (o i).data = .completed spots ∧ spot ∈ spots ∧
        spot.cityEnum.isSome) ∧
      Collection.spots.document spot.id = some ⟨.spots, id⟩ ∧ data = spot.dictionary ∧
      LastEvent (rebuilds o) (Touches o ⟨.spots, id⟩) (Writes o count id spot) s es

theorem step_readable {o : ι → Outcomes} {count : ι → ℤ} {s m t : Shared Firestore ι Rebuild}
    {es : List (ι × Event)} {e : ι × Event} (hrun : run (rebuilds o) s es = some m)
    (hm : Readable o count s es m) (h : rebuilds o m e = some t) :
    Readable o count s (es ++ [e]) t := by
  constructor
  · intro i
    obtain ⟨store, p, hstep, rfl⟩ := interleave_eq_some.mp h
    by_cases hi : i = e.1
    · subst hi
      simpa using step_posts (hm.posts e.1) hstep
    · simpa [hi] using hm.posts i
  · intro id data hdoc
    by_cases htouch : Touches o ⟨.spots, id⟩ m e
    · obtain ⟨r, hr, hk⟩ := htouch
      have hvalue := lookup_of_carriesOut hr h
      rw [hk, hdoc] at hvalue
      rcases (hm.posts e.1).posts r hr.mem (by simp [hk]) with hnone |
          ⟨spots, index, spot, ref, hd, hspot, hcity, href, rfl⟩
      · rw [hnone] at hvalue
        cases hvalue
      · obtain rfl : ref = ⟨.spots, id⟩ := hk
        exact ⟨spot, ⟨e.1, spots, hd, List.mem_of_getElem? hspot, hcity⟩, href,
          Option.some.inj hvalue, lastEvent_concat hrun ⟨spots, index, hd, hspot, hr⟩ h⟩
    · rw [lookup_of_not_touches htouch h] at hdoc
      obtain ⟨spot, hentry, href, hdata, hlast⟩ := hm.documents id data hdoc
      exact ⟨spot, hentry, href, hdata, hlast.concat hrun htouch⟩

theorem run_readable {o : ι → Outcomes} {user : ι → User} {count : ι → ℤ}
    {s t : Shared Firestore ι Rebuild} {es : List (ι × Event)}
    (hempty : ∀ id, s.store.lookup ⟨.spots, id⟩ = none)
    (hp : ∀ i, apiButtonDidTap (user i) (count i) = some (s.process i))
    (hr : run (rebuilds o) s es = some t) : Readable o count s es t := by
  refine invariant_of_prefix (I := Readable o count s)
    (fun pre m e m' hrun hm hstep => step_readable hrun hm hstep) ⟨fun i => ?_, ?_⟩ hr
  · have hi := hp i
    unfold apiButtonDidTap at hi
    split_ifs at hi
    rw [← Option.some.inj hi]
    exact ⟨rfl, by simp⟩
  · intro id data hdoc
    rw [hempty] at hdoc
    cases hdoc

/-- The ids of what the rebuilds write are IDs that a document can have. -/
def AllValid (o : ι → Outcomes) (count : ι → ℤ) : Prop :=
  ∀ i spots, getTaiwanSpots (count i) (o i).data = .completed spots → ValidIDs spots

/-- A valid id leads to the document that has it. -/
theorem Readable.id_eq {o : ι → Outcomes} {count : ι → ℤ} {s t : Shared Firestore ι Rebuild}
    {es : List (ι × Event)} (h : Readable o count s es t) (hids : AllValid o count)
    {id : String} {data : Dictionary} (hdoc : t.store.lookup ⟨.spots, id⟩ = some data) :
    ∃ spot, spot.id = id ∧ ValidDocumentID id ∧ data = spot.dictionary ∧
      LastEvent (rebuilds o) (Touches o ⟨.spots, id⟩) (Writes o count id spot) s es := by
  obtain ⟨spot, ⟨i, spots, hd, hmem, hcity⟩, href, hdata, hlast⟩ := h.documents id data hdoc
  have hvalid := hids i spots hd spot hmem hcity
  rw [document_of_valid hvalid, Option.some.injEq] at href
  obtain rfl : spot.id = id := congrArg DocumentReference.documentID href
  exact ⟨spot, rfl, hvalid, hdata, hlast⟩

/-- Documents whose fields are their IDs are all deleted. -/
theorem removeSpots_of_named {snapshots : List (String × Dictionary)}
    (h : ∀ snapshot ∈ snapshots,
      snapshot.2.string "id" = some snapshot.1 ∧ ValidDocumentID snapshot.1) :
    (removeSpots snapshots).trapped = false ∧ (removeSpots snapshots).requests =
      snapshots.map fun snapshot =>
        ⟨.deleteSpot snapshot.1, ⟨.spots, snapshot.1⟩, none⟩ := by
  induction snapshots with
  | nil => exact ⟨rfl, rfl⟩
  | cons snapshot snapshots ih =>
    rw [List.forall_mem_cons] at h
    obtain ⟨⟨hids, hvalid⟩, hrest⟩ := h
    obtain ⟨htrap, hrequests⟩ := ih hrest
    simp [removeSpots, hids, document_of_valid hvalid, htrap, hrequests]

/-- Every Spots document that any number of rebuilds have left, in any state, names
its own ID, so that it is the one document that its delete goes to, and is decoded to
the spot that was last written to it. Whatever spot is encoded is decoded again. -/
theorem stored_spots_readable {o : ι → Outcomes} {user : ι → User} {count : ι → ℤ}
    {s t : Shared Firestore ι Rebuild} {es : List (ι × Event)}
    (hempty : ∀ id, s.store.lookup ⟨.spots, id⟩ = none) (hids : AllValid o count)
    (hp : ∀ i, apiButtonDidTap (user i) (count i) = some (s.process i))
    (hr : run (rebuilds o) s es = some t) :
    (∀ id data, (id, data) ∈ t.store.documents .spots → data.string "id" = some id ∧
      ∃ spot, Spot.initFirestoreDictionary data = some spot ∧
        LastEvent (rebuilds o) (Touches o ⟨.spots, id⟩) (Writes o count id spot) s es) ∧
    ((removeSpots (t.store.documents .spots)).trapped = false ∧
      (removeSpots (t.store.documents .spots)).requests =
        ((t.store.documents .spots).map fun document =>
          ⟨.deleteSpot document.1, ⟨.spots, document.1⟩, none⟩)) ∧
    ∀ spot : Spot, Spot.initFirestoreDictionary spot.dictionary = some spot := by
  have hreadable := run_readable hempty hp hr
  refine ⟨fun id data hdoc => ?_, removeSpots_of_named ?_,
    Spot.initFirestoreDictionary_dictionary⟩
  · obtain ⟨spot, rfl, -, rfl, hlast⟩ := hreadable.id_eq hids (Firestore.mem_documents.mp hdoc)
    exact ⟨spot.string_id_dictionary, spot, spot.initFirestoreDictionary_dictionary, hlast⟩
  · rintro ⟨id, data⟩ hdoc
    obtain ⟨spot, rfl, hvalid, rfl, -⟩ :=
      hreadable.id_eq hids (Firestore.mem_documents.mp hdoc)
    exact ⟨spot.string_id_dictionary, hvalid⟩

end

/-- Two rebuilds over an empty database. -/
def sampleEmpty : Shared Firestore Bool Rebuild :=
  ⟨∅, fun _ => ⟨1, .removeSpots, ⟨0, 0⟩, []⟩⟩

/-- The first deletes the spot that the second has written, and writes its own. -/
def sampleReplacement : List (Bool × Event) :=
  [(false, .getDocuments), (false, .notify), (false, .getDocuments), (false, .notify),
    (false, .dataTask), (false, .acknowledge (.setSpot 0)), (true, .getDocuments),
    (true, .acknowledge (.deleteSpot "b")), (true, .notify), (true, .getDocuments),
    (true, .notify), (true, .dataTask), (true, .acknowledge (.setSpot 0))]

/-- Each rebuild downloads one spot. -/
def sampleFeeds (i : Bool) : Outcomes :=
  ⟨true, true, sampleFeed [sampleEntry (if i then "c" else "b") "臺南市"], fun _ => false⟩

theorem allValid_sampleFeeds : AllValid sampleFeeds fun _ => 1 := by
  intro i spots hd
  have heq : spots = [sampleSpot (if i then "c" else "b") (some "臺南市")] := by
    cases i <;> exact (Import.completed.inj hd).symm
  subst heq
  cases i <;> decide

theorem stored_spots_readable_sample :
    ∃ t, run (rebuilds sampleFeeds) sampleEmpty sampleReplacement = some t ∧
      (t.store.lookup ⟨.spots, "c"⟩).isSome = true ∧
      ∀ id data, (id, data) ∈ t.store.documents .spots → data.string "id" = some id ∧
        ∃ spot, Spot.initFirestoreDictionary data = some spot := by
  have h := @stored_spots_readable Bool _ sampleFeeds (fun _ => sampleAdmin) (fun _ => 1)
    sampleEmpty _ sampleReplacement (fun _ => rfl) allValid_sampleFeeds (fun _ => rfl) rfl
  refine ⟨_, rfl, ?_, fun id data hdoc => ⟨(h.1 id data hdoc).1, ?_⟩⟩
  · rfl
  · obtain ⟨spot, hspot, -⟩ := (h.1 id data hdoc).2
    exact ⟨spot, hspot⟩

end TaiwanSpots
