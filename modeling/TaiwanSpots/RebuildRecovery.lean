import TaiwanSpots.ManyRebuilds
import TaiwanSpots.RebuildFailures

/-!
# A rebuild after failed ones

Rebuilds may fail in any way and may be abandoned in any state. They leave Spots
documents that a sweep finds, and no other collection than Spots and Cities is
touched. The next rebuild in which everything succeeds therefore leaves what it would
have left without them.
-/
namespace TaiwanSpots
open DocumentStore Runs

section
variable {o : Outcomes} {count : ℤ} {s t : Firestore × Rebuild} {e : Event}

/-- No request of the rebuild goes to the Users collection or below. -/
def Rebuild.Tidy (p : Rebuild) : Prop := ∀ r ∈ p.inFlight, r.key.collection.root ≠ .users

theorem root_of_mem_updataSpotsAPI {spots : List Spot} {r : WriteRequest}
    (h : r ∈ (updataSpotsAPI spots).requests) : r.key.collection.root ≠ .users := by
  rcases mem_updataSpotsAPI h with ⟨_, _, _, _, _, href, rfl⟩ | ⟨-, _, -, rfl⟩
  · rw [root_of_document href]
    exact nofun
  · exact nofun

theorem step_tidy (hs : s.2.Tidy) (h : step o s e = some t) :
    t.2.Tidy ∧
      ∀ k : DocumentReference, k.collection.root = .users → t.1.lookup k = s.1.lookup k := by
  rcases step_cases h with ⟨-, -, -, rfl⟩ | ⟨-, -, -, rfl⟩ | ⟨-, -, -, rfl⟩ | ⟨-, -, -, rfl⟩ |
      ⟨-, -, h⟩ | ⟨label, r, rest, -, he, rfl⟩ | ⟨-, -, h⟩
  · refine ⟨fun r hr => ?_, fun _ _ => rfl⟩
    rw [(key_of_mem_removeSpots hr).1]
    exact nofun
  · exact ⟨hs, fun _ _ => rfl⟩
  · refine ⟨fun r hr => ?_, fun _ _ => rfl⟩
    rw [(key_of_mem_removeCities hr).1]
    exact nofun
  · exact ⟨hs, fun _ _ => rfl⟩
  · rcases h with ⟨spots, -, rfl⟩ | ⟨-, rfl⟩ | ⟨-, rfl⟩
    · exact ⟨fun r hr => root_of_mem_updataSpotsAPI hr, fun _ _ => rfl⟩
    · exact ⟨hs, fun _ _ => rfl⟩
    · exact ⟨hs, fun _ _ => rfl⟩
  · obtain ⟨hmem, hrest⟩ := mem_of_extract he
    refine ⟨fun r' hr' => hs r' ((hrest r').mpr (.inr hr')), fun k hk => ?_⟩
    rw [lookup_perform, if_neg]
    rintro ⟨rfl, -⟩
    exact hs r hmem hk
  · rcases h with ⟨-, rfl⟩ | ⟨-, rfl⟩ | ⟨-, rfl⟩ <;> exact ⟨hs, fun _ _ => rfl⟩

/-- Whatever fails, a write to a Spots document names it. -/
theorem step_namedByID_of_posts (hs : s.2.Posts count o.data) (hdb : NamedByID s.1)
    (h : step o s e = some t) : NamedByID t.1 := by
  rcases step_cases h with ⟨-, -, -, rfl⟩ | ⟨-, -, -, rfl⟩ | ⟨-, -, -, rfl⟩ | ⟨-, -, -, rfl⟩ |
      ⟨-, -, h⟩ | ⟨label, r, rest, -, he, rfl⟩ | ⟨-, -, h⟩
  · exact hdb
  · exact hdb
  · exact hdb
  · exact hdb
  · rcases h with ⟨spots, -, rfl⟩ | ⟨-, rfl⟩ | ⟨-, rfl⟩ <;> exact hdb
  · intro id data hdoc
    rw [lookup_perform] at hdoc
    split_ifs at hdoc with hk
    · rcases hs.posts r (mem_of_extract he).1 (by simp [← hk.1]) with hnone |
          ⟨spots, index, spot, ref, -, -, -, href, rfl⟩
      · rw [hnone] at hdoc
        cases hdoc
      · obtain rfl := Option.some.inj hdoc
        exact ⟨spot.id, spot.string_id_dictionary, href.trans (congrArg some hk.1.symm)⟩
    · exact hdb id data hdoc
  · rcases h with ⟨-, rfl⟩ | ⟨-, rfl⟩ | ⟨-, rfl⟩ <;> exact hdb

end

/-- The documents of a download refer to each other. -/
theorem Rebuilt.crossConsistent {db : Firestore} {spots : List Spot} (h : Rebuilt db spots)
    (hids : ValidIDs spots) : CrossConsistent db := by
  constructor
  · rintro name id ⟨doc, ids, hdoc, hids', hmem⟩
    obtain ⟨c, rfl⟩ := h.no_other_city name (by simp [hdoc])
    rw [h.city_ids c doc hdoc, Option.some.injEq] at hids'
    subst hids'
    obtain ⟨s, hs, rfl⟩ := List.mem_map.mp hmem
    obtain ⟨hmem, hcity⟩ := List.mem_filter.mp hs
    rw [decide_eq_true_eq] at hcity
    have hsome : s.cityEnum.isSome = true := by simp [hcity]
    rw [Firestore.spotDocument, document_of_valid (hids s hmem hsome), Option.bind_some]
    exact (h.spot_exists s.id).mpr ⟨s, hmem, hsome, rfl⟩
  · intro id doc hdoc
    obtain ⟨s, hlast, rfl⟩ := Option.map_eq_some_iff.mp ((h.spot_last id).symm.trans hdoc)
    have hs := List.mem_of_getLast? hlast
    simp only [List.mem_filter, decide_eq_true_eq] at hs
    obtain ⟨hmem, hcity, rfl⟩ := hs
    obtain ⟨c, hc⟩ := Option.isSome_iff_exists.mp hcity
    have hraw : s.city = some c.rawValue := by
      obtain ⟨city, hsc, hcc⟩ := Option.bind_eq_some_iff.mp hc
      rw [hsc, CityEnum.ofRawValue_eq_some.mp hcc]
    obtain ⟨index, hindex⟩ :=
      Option.isSome_iff_exists.mp ((h.city_exists c).mpr ⟨s, hmem, hc⟩)
    have hlisted : ListedBy db c.rawValue s.id := by
      refine ⟨index, _, hindex, h.city_ids c index hindex, ?_⟩
      exact List.mem_map_of_mem (List.mem_filter.mpr ⟨hmem, by simpa using hc⟩)
    exact ⟨c.rawValue, by rw [Spot.string_city_dictionary, hraw], s.id, hlisted,
      document_of_valid (hids s hmem hcity)⟩

/-- A rebuild leaves the documents of the accounts alone. -/
theorem lookup_sequential_users {o : Outcomes} {count : ℤ} {db : Firestore} {spots : List Spot}
    {k : DocumentReference} (hdb : NamedByID db) (ho : o.AllSucceed)
    (hd : getTaiwanSpots count o.data = .completed spots) (hk : k.collection.root = .users) :
    (sequential o count db).lookup k = db.lookup k := by
  refine lookup_sequential_of_not_claimed hdb ho hd ?_
  rintro ((hc | hc) | ⟨r, hr, rfl⟩)
  · rw [hc] at hk
    cases hk
  · rw [hc] at hk
    cases hk
  · exact root_of_mem_updataSpotsAPI hr hk

section
variable {ι : Type*} [DecidableEq ι] {o : ι → Outcomes} {count : ι → ℤ} {db : Firestore}
  {s t : Shared Firestore ι Rebuild} {e : ι × Event} {es : List (ι × Event)}

/-- What rebuilds cannot spoil, whatever fails. -/
structure Unspoilt (o : ι → Outcomes) (count : ι → ℤ) (db : Firestore)
    (s : Shared Firestore ι Rebuild) : Prop where
  posts : ∀ i, (s.process i).Posts (count i) (o i).data
  tidy : ∀ i, (s.process i).Tidy
  named : NamedByID s.store
  users : ∀ k : DocumentReference, k.collection.root = .users →
    s.store.lookup k = db.lookup k

theorem Unspoilt.step (hs : Unspoilt o count db s) (h : rebuilds o s e = some t) :
    Unspoilt o count db t := by
  obtain ⟨hstep, hrest⟩ := rebuilds_cases h
  obtain ⟨htidy, husers⟩ := step_tidy (hs.tidy e.1) hstep
  refine ⟨fun i => ?_, fun i => ?_, step_namedByID_of_posts (hs.posts e.1) hs.named hstep,
    fun k hk => (husers k hk).trans (hs.users k hk)⟩
  · by_cases hi : i = e.1
    · exact hi ▸ step_posts (hs.posts e.1) hstep
    · exact hrest i hi ▸ hs.posts i
  · by_cases hi : i = e.1
    · exact hi ▸ htidy
    · exact hrest i hi ▸ hs.tidy i

/-- After any number of rebuilds that fail in any way and are abandoned in any state,
one that runs alone and in which everything succeeds leaves the documents of Spots, Cities
and Users as it would have left them without the others; and when the ids of its download
are IDs that a document can have, the two collections refer to each other. -/
theorem rebuild_repairs {user : ι → User} {o' : Outcomes} {user' : User} {count' : ℤ}
    {spots : List Spot} {p' : Rebuild} {es' : List Event} {t' : Firestore × Rebuild}
    (hdb : NamedByID s.store) (hp : ∀ i, apiButtonDidTap (user i) (count i) = some (s.process i))
    (hr : run (rebuilds o) s es = some t) (ho : o'.AllSucceed)
    (hd : getTaiwanSpots count' o'.data = .completed spots)
    (hp' : apiButtonDidTap user' count' = some p')
    (hr' : run (step o') (t.store, p') es' = some t') (hf : t'.2.Finished) :
    (∀ k : DocumentReference, k.collection.Listed ∨ k.collection.root = .users →
      t'.1.lookup k = (sequential o' count' s.store).lookup k) ∧
    (ValidIDs spots → CrossConsistent t'.1) := by
  have hstart : Unspoilt o count s.store s := by
    refine ⟨fun i => ?_, fun i => ?_, hdb, fun _ _ => rfl⟩
    · rw [start_of_didTap (hp i)]
      exact ⟨rfl, by simp⟩
    · rw [start_of_didTap (hp i)]
      simp [Rebuild.Tidy]
  have hleft := invariant_of_step (fun m e m' hm h => hm.step h) hstart hr
  have halone := run_agree_sequential hp' hr' hf
  refine ⟨fun k hk => ?_, fun hids =>
    (rebuilt_of_agree ho hleft.named hd hids halone).crossConsistent hids⟩
  rw [halone k]
  rcases hk with hk | hk
  · rw [lookup_sequential_eq_imported hleft.named ho hd hk,
      lookup_sequential_eq_imported hdb ho hd hk]
  · rw [lookup_sequential_users hleft.named ho hd hk, lookup_sequential_users hdb ho hd hk,
      hleft.users k hk]

end

/-- A rebuild whose connection drops after the sweep, and another one that succeeds. -/
theorem rebuild_repairs_sample :
    ∃ t t', run (rebuilds fun _ => sampleDrop)
        ⟨sampleDatabase "a" "臺東縣", fun _ => ⟨1, .removeSpots, ⟨0, 0⟩, []⟩⟩
        (sampleDropEvents.map fun e => ((), e)) = some t ∧
      run (step (sampleOutcomes [])) (t.store, ⟨1, .removeSpots, ⟨0, 0⟩, []⟩)
        [.getDocuments, .notify, .getDocuments, .notify, .dataTask, .acknowledge (.setCity .TTH),
          .notify, .acknowledge (.setSpot 0)] = some t' ∧
      CrossConsistent t'.1 ∧
      ∀ id, t'.1.lookup ⟨.spots, id⟩ =
        (sequential (sampleOutcomes []) 1 (sampleDatabase "a" "臺東縣")).lookup ⟨.spots, id⟩ := by
  have h := @rebuild_repairs Unit _ (fun _ => sampleDrop) (fun _ => 1)
    ⟨sampleDatabase "a" "臺東縣", fun _ => ⟨1, .removeSpots, ⟨0, 0⟩, []⟩⟩ _
    (sampleDropEvents.map fun e => ((), e)) (fun _ => sampleAdmin) (sampleOutcomes []) sampleAdmin 1
    [sampleSpot "a" (some "臺東縣")] _ [.getDocuments, .notify, .getDocuments, .notify, .dataTask,
      .acknowledge (.setCity .TTH), .notify, .acknowledge (.setSpot 0)] _
    (namedByID_sampleDatabase (by decide) _) (fun _ => rfl) rfl ⟨rfl, rfl, fun _ => rfl⟩ rfl rfl
    rfl ⟨.inl rfl, rfl⟩
  exact ⟨_, _, rfl, rfl, h.2 (by decide), fun id => h.1 ⟨.spots, id⟩ (.inl (.inl rfl))⟩

end TaiwanSpots
