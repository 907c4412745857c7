import TaiwanSpots.StoredSpots

/-!
# Any number of rebuilds at the same time

Any number of rebuilds interleave over one database, each with its own download,
and all requests succeed. A rebuild that touches a document last has nothing more
to ask of it and leaves it as it does alone; a document that none of them touches
is one that each of them leaves as it was.
-/
namespace TaiwanSpots
open DocumentStore Runs

theorem start_of_didTap {user : User} {count : ℤ} {p : Rebuild}
    (h : apiButtonDidTap user count = some p) : p = ⟨count, .removeSpots, ⟨0, 0⟩, []⟩ := by
  unfold apiButtonDidTap at h
  split_ifs at h
  exact (Option.some.inj h).symm

section
variable {ι : Type*} {o : ι → Outcomes} {count : ι → ℤ} {spots : ι → List Spot}
  {s m t : Shared Firestore ι Rebuild} {e : ι × Event} {es : List (ι × Event)}
  {k : DocumentReference}

/-- A document that a rebuild with this download can claim: one that a listing can name, or
one that an entry of the download is written to. -/
def Claimed (spots : List Spot) (k : DocumentReference) : Prop :=
  k.collection.Listed ∨ ∃ r ∈ (updataSpotsAPI spots).requests, r.key = k

/-- What holds in every state of rebuilds with these counts and downloads. -/
structure AllTracked (count : ι → ℤ) (spots : ι → List Spot) (s : Shared Firestore ι Rebuild) :
    Prop where
  tracks : ∀ i, (s.process i).Tracks (count i) (spots i)
  claimed : ∀ i, ∀ r ∈ (s.process i).inFlight, Claimed (spots i) r.key
  named : NamedByID s.store

/-- The sweep of documents that are named by their IDs deletes these documents. -/
theorem listed_of_mem_removeSpots {db : Firestore} (hdb : NamedByID db) {r : WriteRequest}
    (h : r ∈ (removeSpots (db.documents .spots)).requests) : r.key.collection.Listed := by
  obtain ⟨documentID, data, ids, ref, hmem, hids, href, rfl⟩ := mem_removeSpots h
  obtain ⟨ids', hids', href'⟩ := hdb documentID data hmem
  obtain rfl : ids' = ids := Option.some.inj (hids'.symm.trans hids)
  obtain rfl : ref = ⟨.spots, documentID⟩ := Option.some.inj (href.symm.trans href')
  exact .inl rfl

theorem step_claimed {o : Outcomes} {count : ℤ} {spots : List Spot} {s t : Firestore × Rebuild}
    {e : Event} (ho : o.AllSucceed) (hd : getTaiwanSpots count o.data = .completed spots)
    (hcount : s.2.count = count) (hdb : NamedByID s.1)
    (hs : ∀ r ∈ s.2.inFlight, Claimed spots r.key) (h : step o s e = some t) :
    ∀ r ∈ t.2.inFlight, Claimed spots r.key := by
  rcases step_cases_of_allSucceed ho hd hcount h with ⟨-, rfl⟩ | ⟨-, rfl⟩ | ⟨-, rfl⟩ |
      ⟨label, r, rest, -, he, rfl⟩ | ⟨-, h⟩
  · exact fun r hr => .inl (listed_of_mem_removeSpots hdb hr)
  · exact fun r hr => .inl (.inr (key_of_mem_removeCities hr).1)
  · exact fun r hr => .inr ⟨r, hr, rfl⟩
  · exact fun r' hr' => hs r' (((mem_of_extract he).2 r').mpr (.inr hr'))
  · rcases h with ⟨-, rfl⟩ | ⟨-, rfl⟩ | ⟨-, rfl⟩ <;> exact hs

variable [DecidableEq ι]

theorem rebuilds_cases (h : rebuilds o s e = some t) :
    step (o e.1) (s.store, s.process e.1) e.2 = some (t.store, t.process e.1) ∧
      ∀ i, i ≠ e.1 → t.process i = s.process i := by
  obtain ⟨store, p, hstep, rfl⟩ := interleave_eq_some.mp h
  refine ⟨by simpa using hstep, fun i hi => ?_⟩
  simp [hi]

theorem AllTracked.step (ho : ∀ i, (o i).AllSucceed)
    (hd : ∀ i, getTaiwanSpots (count i) (o i).data = .completed (spots i))
    (hs : AllTracked count spots s) (h : rebuilds o s e = some t) : AllTracked count spots t := by
  obtain ⟨hstep, hrest⟩ := rebuilds_cases h
  refine ⟨fun i => ?_, fun i => ?_, step_namedByID (hs.tracks e.1) hs.named hstep⟩
  · by_cases hi : i = e.1
    · subst hi
      exact step_tracks (ho _) (hd _) (hs.tracks _) hs.named hstep
    · rw [hrest i hi]
      exact hs.tracks i
  · by_cases hi : i = e.1
    · subst hi
      exact step_claimed (ho _) (hd _) (hs.tracks _).count_eq hs.named (hs.claimed _) hstep
    · rw [hrest i hi]
      exact hs.claimed i

/-- The rebuild whose request is carried out has one request less in flight. -/
theorem inFlight_of_carriesOut {r : WriteRequest} (hr : CarriesOut o r s e)
    (h : rebuilds o s e = some t) :
    ∃ label, extract (fun r => r.label = label) (s.process e.1).inFlight =
      some (r, (t.process e.1).inFlight) ∧ (t.process e.1).stage = (s.process e.1).stage := by
  obtain ⟨label, rest, he, -, hextract⟩ := hr
  obtain ⟨store, p, hstep, rfl⟩ := interleave_eq_some.mp h
  simp only [step, he, acknowledge, hextract] at hstep
  obtain ⟨-, rfl⟩ := Prod.mk.inj (Option.some.inj hstep)
  exact ⟨label, by simpa using hextract, by simp⟩

/-- A rebuild that touches a document asks more of it or leaves it as its download does. -/
theorem lookup_of_touches (hs : AllTracked count spots s) (hk : Touches o k s e)
    (h : rebuilds o s e = some t) :
    (t.process e.1).Pending (spots e.1) k ∨ t.store.lookup k = imported (spots e.1) k := by
  obtain ⟨r, hr, rfl⟩ := hk
  obtain ⟨label, hextract, hstage⟩ := inFlight_of_carriesOut hr h
  by_cases hlast : Rebuild.Pending (spots e.1)
      { s.process e.1 with inFlight := (t.process e.1).inFlight } r.key
  · refine .inl ?_
    rw [Rebuild.Pending, Rebuild.BeforeImport, hstage]
    exact hlast
  · refine .inr ?_
    rw [lookup_of_carriesOut hr h, (hs.tracks e.1).value_of_extract hextract hlast]

/-- A rebuild that does not touch a document now keeps its claims on it. -/
theorem claims_of_not_touches (ho : ∀ i, (o i).AllSucceed)
    (hd : ∀ i, getTaiwanSpots (count i) (o i).data = .completed (spots i))
    (hs : AllTracked count spots s) (hk : ¬ Touches o k s e) (h : rebuilds o s e = some t) (i : ι) :
    ((s.process i).Pending (spots i) k → (t.process i).Pending (spots i) k) ∧
      ((s.process i).Unlisted k.collection → (t.process i).Unlisted k.collection ∨
        (t.process i).BeforeImport ∧
          (s.store.lookup k ≠ none → (t.process i).Pending (spots i) k)) := by
  obtain ⟨hstep, hrest⟩ := rebuilds_cases h
  by_cases hi : i = e.1
  · subst hi
    rcases step_document (ho _) (hd _) (hs.tracks _) hs.named hstep k with
        ⟨label, r, rest, he, hkey, hextract, -⟩ | ⟨-, hpending, hunlisted⟩
    · exact absurd ⟨r, ⟨label, rest, he, (ho _).2.2 _, hextract⟩, hkey⟩ hk
    · exact ⟨hpending, hunlisted⟩
  · rw [hrest i hi]
    exact ⟨id, .inl⟩

/-- What the events so far say about a document: the rebuild that touched it last asks
more of it or has left it as its download does; while none has touched it, each
rebuild that can claim it has yet to do so. -/
def Decided (o : ι → Outcomes) (spots : ι → List Spot) (k : DocumentReference)
    (s : Shared Firestore ι Rebuild) (es : List (ι × Event)) (m : Shared Firestore ι Rebuild) :
    Prop :=
  (∃ i, LastEvent (rebuilds o) (Touches o k) (fun m e => e.1 = i ∧ Touches o k m e) s es ∧
    Claimed (spots i) k ∧
    ((m.process i).Pending (spots i) k ∨ m.store.lookup k = imported (spots i) k)) ∨
  (Along (rebuilds o) (fun m e => ¬ Touches o k m e) s es ∧
    m.store.lookup k = s.store.lookup k ∧
    ∀ i, Claimed (spots i) k → (m.process i).Pending (spots i) k ∨
      (m.process i).Unlisted k.collection ∨ s.store.lookup k = imported (spots i) k)

theorem Decided.step (ho : ∀ i, (o i).AllSucceed)
    (hd : ∀ i, getTaiwanSpots (count i) (o i).data = .completed (spots i))
    (htracked : AllTracked count spots m) (hm : run (rebuilds o) s es = some m)
    (h : Decided o spots k s es m) (he : rebuilds o m e = some t) :
    Decided o spots k s (es ++ [e]) t := by
  by_cases hk : Touches o k m e
  · have hclaimed : Claimed (spots e.1) k := by
      obtain ⟨r, hr, rfl⟩ := hk
      exact htracked.claimed e.1 r hr.mem
    exact .inl ⟨e.1, lastEvent_concat hm ⟨rfl, hk⟩ he, hclaimed, lookup_of_touches htracked hk he⟩
  have hclaims := claims_of_not_touches ho hd htracked hk he
  have hsame := lookup_of_not_touches hk he
  rcases h with ⟨i, hlast, hclaimed, hdone⟩ | ⟨hquiet, hkept, hconcerns⟩
  · refine .inl ⟨i, hlast.concat hm hk, hclaimed, ?_⟩
    rw [hsame]
    exact hdone.imp_left (hclaims i).1
  · refine .inr ⟨along_concat.mpr ⟨hquiet, fun m' hm' => ?_⟩, hsame.trans hkept,
      fun i hclaimed => ?_⟩
    · rwa [Option.some.inj (hm'.symm.trans hm)]
    · rcases hconcerns i hclaimed with hpending | hunlisted | hvalue
      · exact .inl ((hclaims i).1 hpending)
      · rcases (hclaims i).2 hunlisted with hunlisted | ⟨hbefore, hfound⟩
        · exact .inr (.inl hunlisted)
        · by_cases hnone : m.store.lookup k = none
          · by_cases hwritten : ∃ r ∈ (updataSpotsAPI (spots i)).requests, r.key = k
            · exact .inl (.inr ⟨hbefore, hwritten⟩)
            · refine .inr (.inr ?_)
              rw [← hkept, hnone, imported_of_untouched hwritten]
          · exact .inl (hfound hnone)
      · exact .inr (.inr hvalue)

/-- A rebuild that has finished claims no document. -/
theorem Rebuild.Finished.no_claim {p : Rebuild} (h : p.Finished) (spots : List Spot)
    (k : DocumentReference) : ¬ p.Pending spots k ∧ ¬ p.Unlisted k.collection := by
  obtain ⟨hstage, hnil⟩ := h
  constructor
  · rintro (⟨r, hr, -⟩ | ⟨hbefore, -⟩)
    · simp [hnil] at hr
    · rcases hstage with hstage | hstage | hstage <;> simp [Rebuild.BeforeImport, hstage] at hbefore
  · cases k.collection <;> rcases hstage with hstage | hstage | hstage <;>
      simp [Rebuild.Unlisted, hstage]

/-- Alone, a rebuild leaves a document that it claims as its download has it. -/
theorem lookup_sequential_of_claimed {o : Outcomes} {count : ℤ} {db : Firestore}
    {spots : List Spot} (hdb : NamedByID db) (ho : o.AllSucceed)
    (hd : getTaiwanSpots count o.data = .completed spots) (hk : Claimed spots k) :
    (sequential o count db).lookup k = imported spots k := by
  rcases hk with hlisted | hwritten
  · exact lookup_sequential_eq_imported hdb ho hd hlisted
  · rw [sequential_eq ho.1 hdb.untrapped ho.2.1 hd, imported, funext ho.2.2]
    exact lookup_settle_touched hwritten

/-- It leaves the other documents as they are. -/
theorem lookup_sequential_of_not_claimed {o : Outcomes} {count : ℤ} {db : Firestore}
    {spots : List Spot} (hdb : NamedByID db) (ho : o.AllSucceed)
    (hd : getTaiwanSpots count o.data = .completed spots) (hk : ¬ Claimed spots k) :
    (sequential o count db).lookup k = db.lookup k := by
  have hswept : (settle o.fails db (removeSpots (db.documents .spots)).requests).lookup k =
      db.lookup k := by
    refine lookup_settle_of_untouched fun r hr hkey => absurd (.inl ?_) hk
    rw [hkey]
    exact listed_of_mem_removeSpots hdb hr
  rw [sequential_eq ho.1 hdb.untrapped ho.2.1 hd,
    lookup_settle_of_untouched fun r hr hkey => absurd (.inr ⟨r, hr, hkey.symm⟩) hk,
    lookup_removeCities_of_ne fun hcities => hk (.inl (.inr hcities)), hswept]

/-- However many rebuilds overlap: every document is left as the rebuild that touches
it last leaves it alone, and one that none of them touches is left as it was, which is
how each of them leaves it alone. -/
theorem last_rebuild_decides {user : ι → User} (hdb : NamedByID s.store)
    (ho : ∀ i, (o i).AllSucceed)
    (hd : ∀ i, getTaiwanSpots (count i) (o i).data = .completed (spots i))
    (hp : ∀ i, apiButtonDidTap (user i) (count i) = some (s.process i))
    (hr : run (rebuilds o) s es = some t) (hf : ∀ i, (t.process i).Finished)
    (k : DocumentReference) :
    (∃ i, LastEvent (rebuilds o) (Touches o k) (fun m e => e.1 = i ∧ Touches o k m e) s es ∧
      t.store.lookup k = (sequential (o i) (count i) s.store).lookup k) ∨
    (Along (rebuilds o) (fun m e => ¬ Touches o k m e) s es ∧
      t.store.lookup k = s.store.lookup k ∧
      ∀ i, (sequential (o i) (count i) s.store).lookup k = s.store.lookup k) := by
  have hstart : AllTracked count spots s :=
    ⟨fun i => tracks_start (hp i), fun i => by simp [start_of_didTap (hp i)], hdb⟩
  have hclaims : ∀ i, Claimed (spots i) k → (s.process i).Pending (spots i) k ∨
      (s.process i).Unlisted k.collection ∨ s.store.lookup k = imported (spots i) k := by
    rintro i (hlisted | hwritten)
    · exact .inr (.inl (unlisted_start (hp i) hlisted))
    · refine .inl (.inr ⟨?_, hwritten⟩)
      rw [start_of_didTap (hp i)]
      exact .inl rfl
  have hdecided := invariant_of_prefix
    (I := fun pre m => AllTracked count spots m ∧ Decided o spots k s pre m)
    (fun pre m e m' hrun hm he => ⟨hm.1.step ho hd he, hm.2.step ho hd hm.1 hrun he⟩)
    ⟨hstart, .inr ⟨trivial, rfl, hclaims⟩⟩ hr
  rcases hdecided.2 with ⟨i, hlast, hclaimed, hdone⟩ | ⟨hquiet, hkept, hconcerns⟩
  · refine .inl ⟨i, hlast, ?_⟩
    rw [lookup_sequential_of_claimed hdb (ho i) (hd i) hclaimed]
    exact hdone.resolve_left ((hf i).no_claim (spots i) k).1
  · refine .inr ⟨hquiet, hkept, fun i => ?_⟩
    have hidle := (hf i).no_claim (spots i) k
    by_cases hclaimed : Claimed (spots i) k
    · rw [lookup_sequential_of_claimed hdb (ho i) (hd i) hclaimed,
        (hconcerns i hclaimed).resolve_left hidle.1 |>.resolve_left hidle.2]
    · exact lookup_sequential_of_not_claimed hdb (ho i) (hd i) hclaimed

end

/-- The index is the one of the first rebuild and the spots are those of the second. -/
theorem last_rebuild_decides_sample :
    ∃ t, run (rebuilds sampleOverlap) ⟨∅, sampleStart⟩ sampleEvents = some t ∧
      ∀ k, (∃ i, t.store.lookup k = (sequential (sampleOverlap i) (sampleCount i) ∅).lookup k) ∨
        t.store.lookup k = none := by
  refine ⟨_, rfl, fun k => ?_⟩
  have h := @last_rebuild_decides Bool sampleOverlap sampleCount
    (fun i => [sampleSpot "a" (some "臺東縣"), sampleSpot "b" (some "臺東縣")].take
      (sampleCount i).toNat) ⟨∅, sampleStart⟩ _ sampleEvents _ (fun _ => sampleAdmin)
    namedByID_empty (fun _ => ⟨rfl, rfl, fun _ => rfl⟩) (by rintro (_ | _) <;> rfl)
    (fun _ => rfl) rfl (by rintro (_ | _) <;> exact ⟨.inl rfl, rfl⟩) k
  rcases h with ⟨i, -, hi⟩ | ⟨-, hkept, -⟩
  · exact .inl ⟨i, hi⟩
  · exact .inr hkept

end TaiwanSpots
