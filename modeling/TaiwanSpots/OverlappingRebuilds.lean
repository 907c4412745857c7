import TaiwanSpots.RebuildOutcome

/-!
# Two rebuilds at the same time

Two rebuilds interleave over one database, each with its own download, and all
requests succeed. The last request to a document decides it. The final database
is the one that rebuild `w` leaves alone exactly when every request of the other
rebuild that turns out to be the last one to its document leaves that document
as the download of `w` has it.
-/
namespace TaiwanSpots
open DocumentStore Runs

/-- What a download writes to a document in the end. -/
def imported (spots : List Spot) (k : DocumentReference) : Option Dictionary :=
  (settle (fun _ => false) (∅ : Firestore) (updataSpotsAPI spots).requests).lookup k

/-- The collections that a rebuild lists. -/
def Collection.Listed (c : Collection) : Prop := c = .spots ∨ c = .cities

namespace Rebuild

/-- The writes of the download are still to be issued. -/
def BeforeImport (p : Rebuild) : Prop :=
  p.stage = .removeSpots ∨ p.stage = .deletingSpots ∨ p.stage = .removeCities ∨
    p.stage = .deletingCities ∨ p.stage = .getTaiwanSpots

/-- The listing of the collection is still to be answered. -/
def Unlisted (p : Rebuild) : Collection → Prop
  | .users | .sub _ _ _ => False
  | .spots => p.stage = .removeSpots
  | .cities => p.stage = .removeSpots ∨ p.stage = .deletingSpots ∨ p.stage = .removeCities

/-- A request to the document is in flight, or the download will issue one. -/
def Pending (spots : List Spot) (p : Rebuild) (k : DocumentReference) : Prop :=
  (∃ r ∈ p.inFlight, r.key = k) ∨ p.BeforeImport ∧ ∃ r ∈ (updataSpotsAPI spots).requests, r.key = k

/-- What holds of a rebuild with this count and download in any interleaving. -/
structure Tracks (count : ℤ) (spots : List Spot) (p : Rebuild) : Prop where
  coherent : p.Coherent
  count_eq : p.count = count
  listed : ∀ r ∈ p.inFlight, ¬ p.Unlisted r.key.collection
  sweeping : p.BeforeImport → ∀ r ∈ p.inFlight, r.value = none
  importing : ¬ p.BeforeImport → ∀ (db : Firestore) k, (∃ r ∈ p.inFlight, r.key = k) →
    (settle (fun _ => false) db p.inFlight).lookup k = imported spots k
  named : ∀ r ∈ p.inFlight, ∀ id data, r.key = ⟨.spots, id⟩ → r.value = some data →
    ∃ ids, data.string "id" = some ids ∧ Collection.spots.document ids = some ⟨.spots, id⟩

end Rebuild

/-! Requests that all succeed. -/

theorem lookup_settle_base {db db' : Firestore} {rs : List WriteRequest} {k : DocumentReference}
    (h : db.lookup k = db'.lookup k) (fails : Label → Bool) :
    (settle fails db rs).lookup k = (settle fails db' rs).lookup k := by
  rw [lookup_settle, lookup_settle, h]

theorem lookup_settle_touched {db db' : Firestore} {rs : List WriteRequest} {k : DocumentReference}
    (h : ∃ r ∈ rs, r.key = k) :
    (settle (fun _ => false) db rs).lookup k = (settle (fun _ => false) db' rs).lookup k := by
  rw [lookup_settle, lookup_settle]
  cases hl : (effective (fun _ => false) k rs).getLast? with
  | some r => rfl
  | none =>
    obtain ⟨r, hr, rfl⟩ := h
    rw [List.getLast?_eq_none_iff, effective, List.filter_eq_nil_iff] at hl
    exact absurd (by simp) (hl r hr)

theorem imported_of_untouched {spots : List Spot} {k : DocumentReference}
    (h : ¬ ∃ r ∈ (updataSpotsAPI spots).requests, r.key = k) : imported spots k = none := by
  rw [imported, lookup_settle_of_untouched]
  · rfl
  · intro r hr hk
    exact absurd ⟨r, hr, hk.symm⟩ h

/-- Alone, a rebuild leaves the documents of its download and no others. -/
theorem lookup_sequential_eq_imported {o : Outcomes} {count : ℤ} {db : Firestore}
    {spots : List Spot} (hdb : NamedByID db) (ho : o.AllSucceed)
    (hd : getTaiwanSpots count o.data = .completed spots) {k : DocumentReference}
    (hk : k.collection.Listed) : (sequential o count db).lookup k = imported spots k := by
  obtain ⟨hs, hc, hf⟩ := ho
  rw [sequential_eq hs hdb.untrapped hc hd, imported, funext hf]
  apply lookup_settle_base
  obtain ⟨c, id⟩ := k
  rcases hk with rfl | rfl
  · rw [lookup_removeCities_of_ne (by simp), hdb.lookup_removeSpots fun _ => rfl]
    rfl
  · rw [lookup_removeCities]
    rfl

/-! One step of one rebuild. -/

section
variable {o : Outcomes} {count : ℤ} {spots : List Spot} {s t : Firestore × Rebuild} {e : Event}

theorem key_of_mem_removeSpots {db : Firestore} {r : WriteRequest}
    (h : r ∈ (removeSpots (db.documents .spots)).requests) :
    r.key.collection.root = .spots ∧ r.value = none := by
  obtain ⟨_, _, _, _, _, _, href, rfl⟩ := mem_removeSpots h
  exact ⟨root_of_document href, rfl⟩

theorem key_of_mem_removeCities {db : Firestore} {r : WriteRequest}
    (h : r ∈ (removeCities (db.documents .cities)).requests) :
    r.key.collection = .cities ∧ r.value = none := by
  obtain ⟨_, _, _, rfl⟩ := mem_removeCities.mp h
  exact ⟨rfl, rfl⟩

theorem named_of_mem_updataSpotsAPI {r : WriteRequest}
    (h : r ∈ (updataSpotsAPI spots).requests) {id : String} {data : Dictionary}
    (hk : r.key = ⟨.spots, id⟩) (hv : r.value = some data) :
    ∃ ids, data.string "id" = some ids ∧ Collection.spots.document ids = some ⟨.spots, id⟩ := by
  rcases mem_updataSpotsAPI h with ⟨s, i, ref, _, _, href, rfl⟩ | ⟨-, c, _, rfl⟩
  · obtain rfl := Option.some.inj hv
    exact ⟨s.id, s.string_id_dictionary, href.trans (congrArg some hk)⟩
  · cases congrArg DocumentReference.collection hk

theorem Rebuild.Tracks.quiet {p : Rebuild} {stage : Stage} (h : p.Tracks count spots)
    (hst : p.stage ≠ .trapped) (hnil : p.inFlight = []) : (p.goto stage).Tracks count spots where
  coherent := h.coherent.goto hst hnil
  count_eq := h.count_eq
  listed := by simp [Rebuild.goto, hnil]
  sweeping := by simp [Rebuild.goto, hnil]
  importing := by simp [Rebuild.goto, hnil]
  named := by simp [Rebuild.goto, hnil]

theorem mem_of_extract {q : WriteRequest} {rs qs : List WriteRequest} {label : Label}
    (he : extract (fun r => decide (r.label = label)) rs = some (q, qs)) :
    q ∈ rs ∧ ∀ r, r ∈ rs ↔ r = q ∨ r ∈ qs := by
  obtain ⟨pre, post, rfl, rfl, -, -⟩ := extract_eq_some he
  refine ⟨by simp, fun r => ?_⟩
  simp only [List.mem_append, List.mem_cons]
  tauto

/-- What is left of the cases of a step when both listings and the download succeed. -/
theorem step_cases_of_allSucceed (ho : o.AllSucceed)
    (hd : getTaiwanSpots count o.data = .completed spots) (hcount : s.2.count = count)
    (h : step o s e = some t) :
    (s.2.stage = .removeSpots ∧
      t = (s.1, s.2.issue .deletingSpots (removeSpots (s.1.documents .spots)))) ∨
    (s.2.stage = .removeCities ∧
      t = (s.1, s.2.issue .deletingCities (removeCities (s.1.documents .cities)))) ∨
    (s.2.stage = .getTaiwanSpots ∧
      t = (s.1, s.2.issue .settingCities (updataSpotsAPI spots))) ∨
    (∃ label r rest, e = .acknowledge label ∧
      extract (fun r => r.label = label) s.2.inFlight = some (r, rest) ∧
      t = (perform o.fails s.1 r, { s.2 with
        group := ⟨s.2.group.entered,
          if r.label.leaves then s.2.group.left + 1 else s.2.group.left⟩
        inFlight := rest })) ∨
    (s.2.group.left = s.2.group.entered ∧
      ((s.2.stage = .deletingSpots ∧ t = (s.1, s.2.goto .removeCities)) ∨
       (s.2.stage = .deletingCities ∧ t = (s.1, s.2.goto .getTaiwanSpots)) ∨
       (s.2.stage = .settingCities ∧ t = (s.1, s.2.goto .completed)))) := by
  rcases step_cases h with ⟨-, hst, -, ht⟩ | ⟨-, -, hl, -⟩ | ⟨-, hst, -, ht⟩ |
      ⟨-, -, hl, -⟩ | ⟨-, hst, hi⟩ | hack | ⟨-, hg⟩
  · exact .inl ⟨hst, ht⟩
  · cases ho.1.symm.trans hl
  · exact .inr (.inl ⟨hst, ht⟩)
  · cases ho.2.1.symm.trans hl
  · rw [hcount, hd] at hi
    rcases hi with ⟨spots', hsp, ht⟩ | ⟨hsp, -⟩ | ⟨hsp, -⟩
    · obtain rfl := Import.completed.inj hsp
      exact .inr (.inr (.inl ⟨hst, ht⟩))
    · cases hsp
    · cases hsp
  · exact .inr (.inr (.inr (.inl hack)))
  · exact .inr (.inr (.inr (.inr hg)))

theorem step_tracks (ho : o.AllSucceed) (hd : getTaiwanSpots count o.data = .completed spots)
    (hs : s.2.Tracks count spots) (hdb : NamedByID s.1) (h : step o s e = some t) :
    t.2.Tracks count spots := by
  have hco := step_coherent hs.coherent h
  rcases step_cases_of_allSucceed ho hd hs.count_eq h with ⟨hst, rfl⟩ | ⟨hst, rfl⟩ | ⟨hst, rfl⟩ |
      ⟨label, r, rest, -, he, rfl⟩ | ⟨hg, h⟩
  · have htrap := hdb.untrapped
    refine ⟨hco, hs.count_eq, fun r hr => ?_, fun _ r hr => (key_of_mem_removeSpots hr).2, ?_,
      fun r hr id data _ hv => ?_⟩
    · have hroot := (key_of_mem_removeSpots hr).1
      cases hcol : r.key.collection <;>
        simp [hcol, Collection.root, Rebuild.Unlisted, Rebuild.issue, htrap] at hroot ⊢
    · simp [Rebuild.BeforeImport, Rebuild.issue, htrap]
    · simp [(key_of_mem_removeSpots hr).2] at hv
  · refine ⟨hco, hs.count_eq, fun r hr => ?_, fun _ r hr => (key_of_mem_removeCities hr).2, ?_,
      fun r hr id data _ hv => ?_⟩
    · simp [Rebuild.Unlisted, (key_of_mem_removeCities hr).1, Rebuild.issue]
    · simp [Rebuild.BeforeImport, Rebuild.issue]
    · simp [(key_of_mem_removeCities hr).2] at hv
  · refine ⟨hco, hs.count_eq, fun r hr => ?_, ?_,
      fun _ db k hk => lookup_settle_touched hk,
      fun r hr id data => named_of_mem_updataSpotsAPI hr⟩
    · cases hcol : r.key.collection <;> cases htrap : (updataSpotsAPI spots).trapped <;>
        simp [Rebuild.Unlisted, Rebuild.issue, htrap]
    · cases htrap : (updataSpotsAPI spots).trapped <;>
        simp [Rebuild.BeforeImport, Rebuild.issue, htrap]
  · obtain ⟨-, hmem⟩ := mem_of_extract he
    have hold : ∀ r' ∈ rest, r' ∈ s.2.inFlight := fun r' hr' => (hmem r').mpr (.inr hr')
    refine ⟨hco, hs.count_eq, fun r' hr' => hs.listed r' (hold r' hr'),
      fun hb r' hr' => hs.sweeping hb r' (hold r' hr'), fun hb db k hk => ?_,
      fun r' hr' => hs.named r' (hold r' hr')⟩
    calc (settle (fun _ => false) db rest).lookup k
        = (settle (fun _ => false) (perform (fun _ => false) db r) rest).lookup k :=
          lookup_settle_touched hk
      _ = (settle (fun _ => false) db s.2.inFlight).lookup k := settle_extract he k
      _ = imported spots k := by
          obtain ⟨r', hr', hk⟩ := hk
          exact hs.importing hb db k ⟨r', hold r' hr', hk⟩
  · rcases h with ⟨hst, rfl⟩ | ⟨hst, rfl⟩ | ⟨hst, rfl⟩
    · exact hs.quiet (by simp [hst]) (hs.coherent.inFlight_eq_nil (.inl hst) hg)
    · exact hs.quiet (by simp [hst]) (hs.coherent.inFlight_eq_nil (.inr hst) hg)
    · have hb : ¬ s.2.BeforeImport := by simp [Rebuild.BeforeImport, hst]
      refine ⟨hco, hs.count_eq, fun r _ => ?_, ?_, fun _ => hs.importing hb, hs.named⟩
      · cases hcol : r.key.collection <;> simp [Rebuild.Unlisted, Rebuild.goto]
      · simp [Rebuild.BeforeImport, Rebuild.goto]

/-- The last request of a rebuild to a document leaves it as its download has it. -/
theorem Rebuild.Tracks.value_of_extract {p : Rebuild} (h : p.Tracks count spots) {label : Label}
    {r : WriteRequest} {rest : List WriteRequest}
    (he : extract (fun r => decide (r.label = label)) p.inFlight = some (r, rest))
    (hlast : ¬ Rebuild.Pending spots { p with inFlight := rest } r.key) :
    r.value = imported spots r.key := by
  obtain ⟨hmem, -⟩ := mem_of_extract he
  have hnone : ¬ ∃ r' ∈ rest, r'.key = r.key := fun h => hlast (.inl h)
  by_cases hb : p.BeforeImport
  · rw [h.sweeping hb r hmem, imported_of_untouched fun hex => hlast (.inr ⟨hb, hex⟩)]
  · have hpull : Agree (settle (fun _ => false) (perform (fun _ => false) ∅ r) rest)
        (settle (fun _ => false) ∅ p.inFlight) := settle_extract he
    have hpull := hpull r.key
    have hrest : (settle (fun _ => false) (perform (fun _ => false) ∅ r) rest).lookup r.key =
        r.value := by
      rw [lookup_settle_of_untouched (fun r' hr' hk => absurd ⟨r', hr', hk.symm⟩ hnone),
        lookup_perform]
      simp
    rw [← hrest, hpull, h.importing hb ∅ r.key ⟨r, hmem, rfl⟩]

theorem exists_mem_removeSpots {db : Firestore} (hdb : NamedByID db) {id : String}
    (h : db.lookup ⟨.spots, id⟩ ≠ none) :
    ∃ r ∈ (removeSpots (db.documents .spots)).requests, r.key = ⟨.spots, id⟩ := by
  obtain ⟨data, hdoc⟩ := Option.ne_none_iff_exists'.mp h
  obtain ⟨ids, hids, href⟩ := hdb id data hdoc
  exact ⟨_, mem_removeSpots_of hdb.untrapped (Firestore.mem_documents.mpr hdoc) hids href, rfl⟩

theorem exists_mem_removeCities {db : Firestore} {id : String}
    (h : db.lookup ⟨.cities, id⟩ ≠ none) :
    ∃ r ∈ (removeCities (db.documents .cities)).requests, r.key = ⟨.cities, id⟩ := by
  obtain ⟨data, hdoc⟩ := Option.ne_none_iff_exists'.mp h
  exact ⟨_, mem_removeCities.mpr ⟨id, data, hdoc, rfl⟩, rfl⟩

theorem Rebuild.Pending.mono {p p' : Rebuild} {k : DocumentReference} (h : p.Pending spots k)
    (hin : ∀ r ∈ p.inFlight, r ∈ p'.inFlight) (hb : p.BeforeImport → p'.BeforeImport) :
    p'.Pending spots k := by
  rcases h with ⟨r, hr, hk⟩ | ⟨hbefore, hw⟩
  · exact .inl ⟨r, hin r hr, hk⟩
  · exact .inr ⟨hb hbefore, hw⟩

/-- What a step does to one document and to the claims of its rebuild on it. -/
theorem step_document (ho : o.AllSucceed) (hd : getTaiwanSpots count o.data = .completed spots)
    (hs : s.2.Tracks count spots) (hdb : NamedByID s.1) (h : step o s e = some t)
    (k : DocumentReference) :
    (∃ label r rest, e = .acknowledge label ∧ r.key = k ∧
      extract (fun r => r.label = label) s.2.inFlight = some (r, rest) ∧
      t.2.inFlight = rest ∧ t.2.stage = s.2.stage ∧ t.1.lookup k = r.value) ∨
    (t.1.lookup k = s.1.lookup k ∧ (s.2.Pending spots k → t.2.Pending spots k) ∧
      (s.2.Unlisted k.collection → t.2.Unlisted k.collection ∨
        t.2.BeforeImport ∧ (s.1.lookup k ≠ none → t.2.Pending spots k))) := by
  rcases step_cases_of_allSucceed ho hd hs.count_eq h with ⟨hst, rfl⟩ | ⟨hst, rfl⟩ | ⟨hst, rfl⟩ |
      ⟨label, r, rest, he', he, rfl⟩ | ⟨hg, h⟩
  · have hnil := hs.coherent.idle_between (.inl hst)
    have hb : (s.2.issue .deletingSpots (removeSpots (s.1.documents .spots))).BeforeImport := by
      simp [Rebuild.BeforeImport, Rebuild.issue, hdb.untrapped]
    refine .inr ⟨rfl, fun hp => hp.mono (by simp [hnil]) fun _ => hb, fun hun => ?_⟩
    obtain ⟨c, id⟩ := k
    cases c with
    | users | sub => exact absurd hun (by simp [Rebuild.Unlisted])
    | spots => exact .inr ⟨hb, fun hne => .inl (exists_mem_removeSpots hdb hne)⟩
    | cities => exact .inl (by simp [Rebuild.Unlisted, Rebuild.issue, hdb.untrapped])
  · have hnil := hs.coherent.idle_between (.inr (.inl hst))
    have hb : (s.2.issue .deletingCities (removeCities (s.1.documents .cities))).BeforeImport := by
      simp [Rebuild.BeforeImport, Rebuild.issue]
    refine .inr ⟨rfl, fun hp => hp.mono (by simp [hnil]) fun _ => hb, fun hun => ?_⟩
    obtain ⟨c, id⟩ := k
    cases c with
    | users | sub => exact absurd hun (by simp [Rebuild.Unlisted])
    | spots => simp [Rebuild.Unlisted, hst] at hun
    | cities => exact .inr ⟨hb, fun hne => .inl (exists_mem_removeCities hne)⟩
  · have hnil := hs.coherent.idle_between (.inr (.inr hst))
    refine .inr ⟨rfl, ?_, fun hun => ?_⟩
    · rintro (⟨r, hr, -⟩ | ⟨-, hw⟩)
      · simp [hnil] at hr
      · exact .inl hw
    · cases hc : k.collection <;> simp [hc, Rebuild.Unlisted, hst] at hun
  · by_cases hk : r.key = k
    · refine .inl ⟨label, r, rest, he', hk, he, rfl, rfl, ?_⟩
      rw [lookup_perform, if_pos ⟨hk.symm, ho.2.2 _⟩]
    · refine .inr ⟨?_, ?_, fun hun => .inl hun⟩
      · rw [lookup_perform, if_neg fun h => hk h.1.symm]
      · rintro (⟨r', hr', hk'⟩ | hw)
        · obtain ⟨-, hmem⟩ := mem_of_extract he
          rcases (hmem r').mp hr' with rfl | hr'
          · exact absurd hk' hk
          · exact .inl ⟨r', hr', hk'⟩
        · exact .inr hw
  · rcases h with ⟨hst, rfl⟩ | ⟨hst, rfl⟩ | ⟨hst, rfl⟩
    · refine .inr ⟨rfl, fun hp => hp.mono (fun _ hr => hr) fun _ => .inr (.inr (.inl rfl)),
        fun hun => ?_⟩
      cases hc : k.collection with
      | users | sub => simp [hc, Rebuild.Unlisted] at hun
      | spots => simp [hc, Rebuild.Unlisted, hst] at hun
      | cities => exact .inl (.inr (.inr rfl))
    · refine .inr ⟨rfl, fun hp => hp.mono (fun _ hr => hr) fun _ =>
        .inr (.inr (.inr (.inr rfl))), fun hun => ?_⟩
      cases hc : k.collection <;> simp [hc, Rebuild.Unlisted, hst] at hun
    · refine .inr ⟨rfl, fun hp => hp.mono (fun _ hr => hr) fun hb => ?_, fun hun => ?_⟩
      · simp [Rebuild.BeforeImport, hst] at hb
      · cases hc : k.collection <;> simp [hc, Rebuild.Unlisted, hst] at hun

/-- A rebuild that has nothing left to ask of a document never touches it again. -/
theorem step_settled (ho : o.AllSucceed) (hd : getTaiwanSpots count o.data = .completed spots)
    (hs : s.2.Tracks count spots) (h : step o s e = some t)
    {k : DocumentReference} (hk : k.collection.Listed) (hp : ¬ s.2.Pending spots k)
    (hu : ¬ s.2.Unlisted k.collection) :
    ¬ t.2.Pending spots k ∧ ¬ t.2.Unlisted k.collection ∧ t.1.lookup k = s.1.lookup k := by
  rcases step_cases_of_allSucceed ho hd hs.count_eq h with ⟨hst, rfl⟩ | ⟨hst, rfl⟩ | ⟨hst, rfl⟩ |
      ⟨label, r, rest, -, he, rfl⟩ | ⟨hg, h⟩
  · have hw : ¬ ∃ r ∈ (updataSpotsAPI spots).requests, r.key = k := fun hw =>
      hp (.inr ⟨.inl hst, hw⟩)
    refine ⟨?_, ?_, rfl⟩
    · rintro (⟨r, hr, rfl⟩ | ⟨-, hw'⟩)
      · rcases hk with hc | hc
        · exact hu (by rw [hc]; exact hst)
        · exact hu (by rw [hc]; exact .inl hst)
      · exact hw hw'
    · cases hc : k.collection <;>
        simp [hc, Rebuild.Unlisted, hst, Collection.Listed] at hu hk ⊢
  · have hw : ¬ ∃ r ∈ (updataSpotsAPI spots).requests, r.key = k :=
      fun hw => hp (.inr ⟨.inr (.inr (.inl hst)), hw⟩)
    refine ⟨?_, ?_, rfl⟩
    · rintro (⟨r, hr, rfl⟩ | ⟨-, hw'⟩)
      · exact hu (by rw [(key_of_mem_removeCities hr).1]; exact .inr (.inr hst))
      · exact hw hw'
    · cases k.collection <;> simp [Rebuild.Unlisted, Rebuild.issue]
  · have hw : ¬ ∃ r ∈ (updataSpotsAPI spots).requests, r.key = k :=
      fun hw => hp (.inr ⟨.inr (.inr (.inr (.inr hst))), hw⟩)
    refine ⟨?_, ?_, rfl⟩
    · rintro (hw' | ⟨-, hw'⟩)
      · exact hw hw'
      · exact hw hw'
    · cases k.collection <;> cases htrap : (updataSpotsAPI spots).trapped <;>
        simp [Rebuild.Unlisted, Rebuild.issue, htrap]
  · obtain ⟨hr, hmem⟩ := mem_of_extract he
    refine ⟨?_, hu, ?_⟩
    · rintro (⟨r', hr', hk⟩ | hw)
      · exact hp (.inl ⟨r', (hmem r').mpr (.inr hr'), hk⟩)
      · exact hp (.inr hw)
    · rw [lookup_perform, if_neg fun hk => hp (.inl ⟨r, hr, hk.1.symm⟩)]
  · have hin : ¬ ∃ r ∈ s.2.inFlight, r.key = k := fun hin => hp (.inl hin)
    rcases h with ⟨hst, rfl⟩ | ⟨hst, rfl⟩ | ⟨hst, rfl⟩
    · refine ⟨?_, ?_, rfl⟩
      · rintro (hin' | ⟨-, hw⟩)
        · exact hin hin'
        · exact hp (.inr ⟨.inr (.inl hst), hw⟩)
      · cases hc : k.collection <;> simp [hc, Rebuild.Unlisted, hst, Rebuild.goto] at hu ⊢
    · refine ⟨?_, ?_, rfl⟩
      · rintro (hin' | ⟨-, hw⟩)
        · exact hin hin'
        · exact hp (.inr ⟨.inr (.inr (.inr (.inl hst))), hw⟩)
      · cases hc : k.collection <;> simp [Rebuild.Unlisted, Rebuild.goto]
    · refine ⟨?_, ?_, rfl⟩
      · rintro (hin' | ⟨hb, -⟩)
        · exact hin hin'
        · simp [Rebuild.BeforeImport, Rebuild.goto] at hb
      · cases hc : k.collection <;> simp [Rebuild.Unlisted, Rebuild.goto]

/-- A step keeps the Spots documents named by their IDs. -/
theorem step_namedByID (hs : s.2.Tracks count spots) (hdb : NamedByID s.1)
    (h : step o s e = some t) : NamedByID t.1 := by
  rcases step_cases h with ⟨-, -, -, rfl⟩ | ⟨-, -, -, rfl⟩ | ⟨-, -, -, rfl⟩ |
      ⟨-, -, -, rfl⟩ | ⟨-, -, h⟩ | ⟨label, r, rest, -, he, rfl⟩ | ⟨-, -, h⟩
  · exact hdb
  · exact hdb
  · exact hdb
  · exact hdb
  · rcases h with ⟨spots, -, rfl⟩ | ⟨-, rfl⟩ | ⟨-, rfl⟩ <;> exact hdb
  · intro id data hdoc
    rw [lookup_perform] at hdoc
    split_ifs at hdoc with hk
    · exact hs.named r (mem_of_extract he).1 id data hk.1.symm hdoc
    · exact hdb id data hdoc
  · rcases h with ⟨-, rfl⟩ | ⟨-, rfl⟩ | ⟨-, rfl⟩ <;> exact hdb

end

/-! Two rebuilds. -/

/-- The events of both rebuilds in any order. -/
def overlap (o : Bool → Outcomes) :
    Shared Firestore Bool Rebuild → Bool × Event → Option (Shared Firestore Bool Rebuild) :=
  interleave fun i db p e => step (o i) (db, p) e

/-- When the event is a request of the other rebuild to a document of Spots or Cities, and
neither rebuild has a request to this document in flight, to issue, or to derive from a
listing still to come, then the request leaves it as the download of `w` has it. -/
def LastLeavesAs (spots : Bool → List Spot) (w : Bool) (s : Shared Firestore Bool Rebuild)
    (e : Bool × Event) : Prop :=
  ∀ label r rest, e = (!w, .acknowledge label) →
    extract (fun r => r.label = label) (s.process !w).inFlight = some (r, rest) →
    r.key.collection.Listed →
    ¬ Rebuild.Pending (spots !w) { s.process !w with inFlight := rest } r.key →
    ¬ (s.process w).Pending (spots w) r.key → ¬ (s.process w).Unlisted r.key.collection →
    r.value = imported (spots w) r.key

/-- What holds in every state of two interleaved rebuilds. -/
structure Tracked (count : Bool → ℤ) (spots : Bool → List Spot)
    (s : Shared Firestore Bool Rebuild) : Prop where
  tracks : ∀ i, (s.process i).Tracks (count i) (spots i)
  named : NamedByID s.store

/-- Every document is as the download of `w` has it, or will be touched again. -/
def Converging (spots : Bool → List Spot) (w : Bool) (s : Shared Firestore Bool Rebuild) : Prop :=
  ∀ k : DocumentReference, k.collection.Listed →
    (s.process w).Pending (spots w) k ∨ (s.process w).Unlisted k.collection ∨
      (s.process !w).Pending (spots !w) k ∨ s.store.lookup k = imported (spots w) k

section
variable {o : Bool → Outcomes} {count : Bool → ℤ} {spots : Bool → List Spot} {w : Bool}
  {s t : Shared Firestore Bool Rebuild} {e : Bool × Event} {es : List (Bool × Event)}

theorem overlap_cases (h : overlap o s e = some t) :
    step (o e.1) (s.store, s.process e.1) e.2 = some (t.store, t.process e.1) ∧
      ∀ i, i ≠ e.1 → t.process i = s.process i := by
  obtain ⟨store, p, hstep, rfl⟩ := interleave_eq_some.mp h
  refine ⟨by simpa using hstep, fun i hi => ?_⟩
  simp [hi]

theorem overlap_tracked (ho : ∀ i, (o i).AllSucceed)
    (hd : ∀ i, getTaiwanSpots (count i) (o i).data = .completed (spots i))
    (hs : Tracked count spots s) (h : overlap o s e = some t) : Tracked count spots t := by
  obtain ⟨hstep, hrest⟩ := overlap_cases h
  refine ⟨fun i => ?_, step_namedByID (hs.tracks e.1) hs.named hstep⟩
  by_cases hi : i = e.1
  · subst hi
    exact step_tracks (ho _) (hd _) (hs.tracks _) hs.named hstep
  · rw [hrest i hi]
    exact hs.tracks i

theorem overlap_converging (ho : ∀ i, (o i).AllSucceed)
    (hd : ∀ i, getTaiwanSpots (count i) (o i).data = .completed (spots i))
    (hs : Tracked count spots s) (hc : Converging spots w s) (hg : LastLeavesAs spots w s e)
    (h : overlap o s e = some t) : Converging spots w t := by
  obtain ⟨hstep, hrest⟩ := overlap_cases h
  obtain ⟨i, e⟩ := e
  simp only at hstep hrest
  intro k hk
  have hdoc := step_document (ho i) (hd i) (hs.tracks i) hs.named hstep k
  simp only at hdoc
  by_cases hi : i = w
  · -- a step of `w`: its last request to a document is right, its listings find the rest
    subst hi
    rw [hrest (!i) (by simp)]
    rcases hdoc with ⟨label, r, rest, -, rfl, he, hin, hst, hval⟩ | ⟨hsame, hpend, hunl⟩
    · by_cases hlast : Rebuild.Pending (spots i) { s.process i with inFlight := rest } r.key
      · refine .inl ?_
        rw [Rebuild.Pending, Rebuild.BeforeImport, hin, hst]
        exact hlast
      · exact .inr (.inr (.inr (hval.trans ((hs.tracks i).value_of_extract he hlast))))
    · rcases hc k hk with hp | hu | hp | hv
      · exact .inl (hpend hp)
      · rcases hunl hu with hu | ⟨hb, hfound⟩
        · exact .inr (.inl hu)
        · by_cases hne : s.store.lookup k = none
          · by_cases hw : ∃ r ∈ (updataSpotsAPI (spots i)).requests, r.key = k
            · exact .inl (.inr ⟨hb, hw⟩)
            · exact .inr (.inr (.inr (by rw [hsame, hne, imported_of_untouched hw])))
          · exact .inl (hfound hne)
      · exact .inr (.inr (.inl hp))
      · exact .inr (.inr (.inr (hsame.trans hv)))
  · -- a step of the other rebuild: the guard speaks about its last request to a document
    obtain rfl : i = !w := Bool.eq_not.mpr hi
    rw [hrest w (by simp)]
    rcases hdoc with ⟨label, r, rest, rfl, rfl, he, hin, hst, hval⟩ | ⟨hsame, hpend, -⟩
    · by_cases hp : (s.process w).Pending (spots w) r.key
      · exact .inl hp
      by_cases hu : (s.process w).Unlisted r.key.collection
      · exact .inr (.inl hu)
      by_cases hlast : Rebuild.Pending (spots !w) { s.process !w with inFlight := rest } r.key
      · refine .inr (.inr (.inl ?_))
        rw [Rebuild.Pending, Rebuild.BeforeImport, hin, hst]
        exact hlast
      · exact .inr (.inr (.inr (hval.trans (hg label r rest rfl he hk hlast hp hu))))
    · rcases hc k hk with hp | hu | hp | hv
      · exact .inl hp
      · exact .inr (.inl hu)
      · exact .inr (.inr (.inl (hpend hp)))
      · exact .inr (.inr (.inr (hsame.trans hv)))

/-- Once no rebuild claims a document, it keeps its contents to the end. -/
theorem run_settled (ho : ∀ i, (o i).AllSucceed)
    (hd : ∀ i, getTaiwanSpots (count i) (o i).data = .completed (spots i))
    (hs : Tracked count spots s) {k : DocumentReference} (hc : k.collection.Listed)
    (hk : ∀ i, ¬ (s.process i).Pending (spots i) k ∧ ¬ (s.process i).Unlisted k.collection)
    (hr : run (overlap o) s es = some t) : t.store.lookup k = s.store.lookup k := by
  have hinv := invariant_of_step
    (I := fun m => Tracked count spots m ∧
      (∀ i, ¬ (m.process i).Pending (spots i) k ∧ ¬ (m.process i).Unlisted k.collection) ∧
      m.store.lookup k = s.store.lookup k)
    (fun m e m' hm hstep => by
      obtain ⟨htr, hq, hl⟩ := hm
      obtain ⟨hone, hrest⟩ := overlap_cases hstep
      have hset := step_settled (ho e.1) (hd e.1) (htr.tracks e.1) hone hc (hq e.1).1 (hq e.1).2
      refine ⟨overlap_tracked ho hd htr hstep, fun i => ?_, hset.2.2.trans hl⟩
      by_cases hi : i = e.1
      · subst hi
        exact ⟨hset.1, hset.2.1⟩
      · rw [hrest i hi]
        exact hq i)
    ⟨hs, hk, rfl⟩ hr
  exact hinv.2.2

/-- The guard is necessary: a request that is the last one to its document decides it. -/
theorem along_of_final (ho : ∀ i, (o i).AllSucceed)
    (hd : ∀ i, getTaiwanSpots (count i) (o i).data = .completed (spots i))
    (hs : Tracked count spots s) (hr : run (overlap o) s es = some t)
    (hfinal : ∀ k : DocumentReference, k.collection.Listed →
      t.store.lookup k = imported (spots w) k) :
    Along (overlap o) (LastLeavesAs spots w) s es := by
  induction es generalizing s with
  | nil => trivial
  | cons e es ih =>
    obtain ⟨m, hm, hrest⟩ := run_cons.mp hr
    have htr := overlap_tracked ho hd hs hm
    refine ⟨?_, fun m' hm' => ?_⟩
    · rintro label r rest rfl he hlisted hlast hp hu
      obtain ⟨hstep, hother⟩ := overlap_cases hm
      have hw := hother w (by simp)
      obtain ⟨hmem, -⟩ := mem_of_extract he
      have hmw : step (o !w) (s.store, s.process !w) (.acknowledge label) =
          some (perform (o !w).fails s.store r, { s.process !w with
            group := ⟨(s.process !w).group.entered, if r.label.leaves then
              (s.process !w).group.left + 1 else (s.process !w).group.left⟩
            inFlight := rest }) := by
        simp only [step, acknowledge, he]
      obtain ⟨hstore, hproc⟩ := Prod.mk.inj (Option.some.inj (hstep.symm.trans hmw))
      have hval : m.store.lookup r.key = r.value := by
        rw [hstore, lookup_perform, if_pos ⟨rfl, (ho _).2.2 _⟩]
      have hquiet : ∀ i, ¬ (m.process i).Pending (spots i) r.key ∧
          ¬ (m.process i).Unlisted r.key.collection := by
        intro i
        by_cases hi : i = w
        · subst hi
          rw [hw]
          exact ⟨hp, hu⟩
        · obtain rfl : i = !w := Bool.eq_not.mpr hi
          refine ⟨by rw [hproc]; exact hlast, ?_⟩
          rw [hproc]
          exact (hs.tracks _).listed r hmem
      rw [← hval, ← run_settled ho hd htr hlisted hquiet hrest, hfinal r.key hlisted]
    · obtain rfl : m = m' := Option.some.inj (hm.symm.trans hm')
      exact ih htr hrest

theorem tracks_start {user : User} {count : ℤ} {spots : List Spot} {p : Rebuild}
    (h : apiButtonDidTap user count = some p) : p.Tracks count spots := by
  have hco := apiButtonDidTap_coherent h
  unfold apiButtonDidTap at h
  split_ifs at h
  obtain rfl := Option.some.inj h
  exact ⟨hco, rfl, by simp, by simp, by simp, by simp⟩

/-- At the start both listings are to come. -/
theorem unlisted_start {user : User} {count : ℤ} {p : Rebuild}
    (h : apiButtonDidTap user count = some p) {c : Collection} (hc : c.Listed) :
    p.Unlisted c := by
  unfold apiButtonDidTap at h
  split_ifs at h
  obtain rfl := Option.some.inj h
  rcases hc with rfl | rfl
  · rfl
  · exact .inl rfl

theorem final_iff_along (ho : ∀ i, (o i).AllSucceed)
    (hd : ∀ i, getTaiwanSpots (count i) (o i).data = .completed (spots i))
    (hs : Tracked count spots s)
    (hu : ∀ c : Collection, c.Listed → (s.process w).Unlisted c)
    (hr : run (overlap o) s es = some t) (hf : ∀ i, (t.process i).Finished) :
    (∀ k : DocumentReference, k.collection.Listed → t.store.lookup k = imported (spots w) k) ↔
      Along (overlap o) (LastLeavesAs spots w) s es := by
  constructor
  · exact along_of_final ho hd hs hr
  · intro hg k hk
    have hinv := invariant (I := fun m => Tracked count spots m ∧ Converging spots w m)
      (fun m e m' hm hge hstep => ⟨overlap_tracked ho hd hm.1 hstep,
        overlap_converging ho hd hm.1 hm.2 hge hstep⟩)
      ⟨hs, fun k hk => .inr (.inl (hu _ hk))⟩ hg hr
    have hidle : ∀ i, ¬ (t.process i).Pending (spots i) k ∧
        ¬ (t.process i).Unlisted k.collection := by
      intro i
      obtain ⟨hst, hnil⟩ := hf i
      refine ⟨?_, ?_⟩
      · rintro (⟨r, hmem, -⟩ | ⟨hb, -⟩)
        · simp [hnil] at hmem
        · rcases hst with hst | hst | hst <;> simp [Rebuild.BeforeImport, hst] at hb
      · cases k.collection <;> rcases hst with hst | hst | hst <;> simp [Rebuild.Unlisted, hst]
    rcases hinv.2 k hk with hp | hun | hp | hv
    · exact absurd hp (hidle w).1
    · exact absurd hun (hidle w).2
    · exact absurd hp (hidle !w).1
    · exact hv

end

/-- Two overlapping rebuilds end in the database that one of them, `w`, leaves
alone exactly when every last request of the other agrees with the download of `w`. -/
theorem overlapping_rebuilds_iff {o : Bool → Outcomes} {user : Bool → User} {count : Bool → ℤ}
    {db : Firestore} {entries : Bool → List Dictionary} {decoded : Bool → List Spot}
    {p : Bool → Rebuild} {es : List (Bool × Event)} {t : Shared Firestore Bool Rebuild}
    (hdb : NamedByID db) (ho : ∀ i, (o i).AllSucceed)
    (hinfo : ∀ i, info (o i).data = some (entries i))
    (hdecode : ∀ i, (entries i).mapM Spot.initDictionary = some (decoded i))
    (h1 : ∀ i, 1 ≤ count i) (hn : ∀ i, count i ≤ (entries i).length)
    (hp : ∀ i, apiButtonDidTap (user i) (count i) = some (p i))
    (hr : run (overlap o) ⟨db, p⟩ es = some t) (hf : ∀ i, (t.process i).Finished) :
    (∃ w, SameCollection .spots t.store (sequential (o w) (count w) db) ∧
      SameCollection .cities t.store (sequential (o w) (count w) db)) ↔
    ∃ w, Along (overlap o) (LastLeavesAs (fun i => (decoded i).take (count i).toNat) w)
      ⟨db, p⟩ es := by
  have hd : ∀ i, getTaiwanSpots (count i) (o i).data =
      .completed ((decoded i).take (count i).toNat) :=
    fun i => getTaiwanSpots_of_decoded (hinfo i) (hdecode i) (h1 i) (hn i)
  refine exists_congr fun w => ?_
  have htracked : Tracked count (fun i => (decoded i).take (count i).toNat) ⟨db, p⟩ :=
    ⟨fun i => tracks_start (hp i), hdb⟩
  rw [← final_iff_along ho hd htracked (fun _ hc => unlisted_start (hp w) hc) hr hf]
  have halone := fun k => lookup_sequential_eq_imported hdb (ho w) (hd w) (k := k)
  constructor
  · rintro ⟨hspots, hcities⟩ ⟨c, id⟩ hk
    rw [← halone _ hk]
    rcases hk with rfl | rfl
    · exact hspots id
    · exact hcities id
  · intro h
    refine ⟨fun id => ?_, fun id => ?_⟩
    · rw [h _ (.inl rfl), halone _ (.inl rfl)]
    · rw [h _ (.inr rfl), halone _ (.inr rfl)]

/-- A feed of two spots of one city, of which the rebuilds import one and two. -/
def sampleOverlap : Bool → Outcomes :=
  fun _ => ⟨true, true, sampleFeed [sampleEntry "a" "臺東縣", sampleEntry "b" "臺東縣"],
    fun _ => false⟩

def sampleCount (i : Bool) : ℤ := if i then 2 else 1

def sampleStart (i : Bool) : Rebuild := ⟨sampleCount i, .removeSpots, ⟨0, 0⟩, []⟩

/-- Both rebuilds sweep the empty database, then `true` writes, then `false`. -/
def sampleEvents : List (Bool × Event) :=
  [(true, .getDocuments), (true, .notify), (true, .getDocuments), (true, .notify),
   (false, .getDocuments), (false, .notify), (false, .getDocuments), (false, .notify),
   (true, .dataTask), (true, .acknowledge (.setSpot 0)), (true, .acknowledge (.setSpot 1)),
   (true, .acknowledge (.setCity .TTH)), (true, .notify),
   (false, .dataTask), (false, .acknowledge (.setSpot 0)),
   (false, .acknowledge (.setCity .TTH)), (false, .notify)]

theorem namedByID_empty : NamedByID ∅ := by
  intro id data h
  cases h

/-- The two sweep and write by turns, each document last by `true`. -/
def sampleSerial : List (Bool × Event) :=
  [(true, .getDocuments), (true, .notify), (true, .getDocuments), (false, .getDocuments),
   (true, .notify), (false, .notify), (false, .getDocuments), (false, .notify),
   (false, .dataTask), (true, .dataTask), (false, .acknowledge (.setSpot 0)),
   (true, .acknowledge (.setSpot 0)), (false, .acknowledge (.setCity .TTH)), (false, .notify),
   (true, .acknowledge (.setSpot 1)), (true, .acknowledge (.setCity .TTH)), (true, .notify)]

theorem overlapping_rebuilds_iff_sample :
    ∃ t, run (overlap sampleOverlap) ⟨∅, sampleStart⟩ sampleSerial = some t ∧
      ∃ w, Along (overlap sampleOverlap) (LastLeavesAs (fun i =>
        [sampleSpot "a" (some "臺東縣"), sampleSpot "b" (some "臺東縣")].take (sampleCount i).toNat)
        w) ⟨∅, sampleStart⟩ sampleSerial := by
  refine ⟨_, rfl, (@overlapping_rebuilds_iff sampleOverlap (fun _ => sampleAdmin) sampleCount ∅
    (fun _ => [sampleEntry "a" "臺東縣", sampleEntry "b" "臺東縣"])
    (fun _ => [sampleSpot "a" (some "臺東縣"), sampleSpot "b" (some "臺東縣")])
    sampleStart sampleSerial _ namedByID_empty (fun _ => ⟨rfl, rfl, fun _ => rfl⟩)
    (fun _ => rfl) (fun _ => rfl) (by decide) (by decide) (fun _ => rfl) rfl
    (by rintro (_ | _) <;> exact ⟨.inl rfl, rfl⟩)).mp ⟨true, fun _ => rfl, fun _ => rfl⟩⟩

/-- The index is the one of the first rebuild and the spots are those of the second. -/
theorem overlapping_rebuilds_mix :
    ∃ t, run (overlap sampleOverlap) ⟨∅, sampleStart⟩ sampleEvents = some t ∧
      (∀ i, (t.process i).Finished) ∧
      ¬ ∃ w, SameCollection .spots t.store (sequential (sampleOverlap w) (sampleCount w) ∅) ∧
        SameCollection .cities t.store (sequential (sampleOverlap w) (sampleCount w) ∅) := by
  refine ⟨_, rfl, by rintro (_ | _) <;> exact ⟨.inl rfl, rfl⟩, ?_⟩
  rintro ⟨w, hspots, hcities⟩
  cases w with
  | false => exact absurd (congrArg Option.isSome (hspots "b")) (by decide)
  | true =>
    exact absurd (congrArg (fun d => d.bind fun d => Dictionary.strings d "cityIds")
      (hcities "臺東縣")) (by decide)

end TaiwanSpots
