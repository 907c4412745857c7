import TaiwanSpots.Descent
import TaiwanSpots.ManyRebuilds

/-!
# Rebuilds come to their end

A rebuild lists each collection once and issues the writes of its download once. A
listing finds no more documents than there were at the start and than all downloads
together can have added. However many rebuilds overlap and whatever fails, the number
of their callbacks is therefore bounded, and only finished rebuilds wait for none.
-/
namespace TaiwanSpots
open DocumentStore Runs

/-- The number of requests that a download issues. -/
def writes (count : ℤ) (data : Option Body) : ℕ :=
  match getTaiwanSpots count data with
  | .completed spots => (updataSpotsAPI spots).requests.length
  | _ => 0

namespace Rebuild

/-- How many documents the rebuild may still add. -/
def additions (w : ℕ) (p : Rebuild) : ℕ :=
  (p.inFlight.filter fun r => r.value.isSome).length +
    match p.stage with
    | .removeSpots | .deletingSpots | .removeCities | .deletingCities | .getTaiwanSpots => w
    | _ => 0

/-- How many callbacks may still run, when a listing finds at most `n` documents. -/
def callbacks (n w : ℕ) (p : Rebuild) : ℕ :=
  p.inFlight.length +
    match p.stage with
    | .removeSpots => 2 * n + w + 6
    | .deletingSpots => n + w + 5
    | .removeCities => n + w + 4
    | .deletingCities => w + 3
    | .getTaiwanSpots => w + 2
    | .settingCities => 1
    | .completed | .returned | .trapped => 0

end Rebuild

theorem length_removeSpots_le (snapshots : List (String × Dictionary)) :
    (removeSpots snapshots).requests.length ≤ snapshots.length := by
  induction snapshots with
  | nil => exact le_rfl
  | cons snapshot snapshots ih =>
    rw [removeSpots, List.length_cons]
    cases snapshot.2.string "id" with
    | none => exact ih.trans (Nat.le_succ _)
    | some ids =>
      cases hpath : Collection.spots.document ids with
      | none => simp [hpath]
      | some ref => simpa [hpath] using ih

theorem length_removeCities_le (snapshots : List (String × Dictionary)) :
    (removeCities snapshots).requests.length ≤ snapshots.length := by
  induction snapshots with
  | nil => exact le_rfl
  | cons snapshot snapshots ih => simpa [removeCities] using ih

theorem length_documents_le (db : Firestore) (c : Collection) :
    (db.documents c).length ≤ db.entries.length :=
  List.length_filterMap_le _ _

theorem length_entries_perform_le (fails : Label → Bool) (db : Firestore) (r : WriteRequest) :
    (perform fails db r).entries.length ≤
      db.entries.length + if r.value.isSome then 1 else 0 := by
  have herase : (List.kerase r.key db.entries).length ≤ db.entries.length :=
    (List.kerase_sublist r.key db.entries).length_le
  unfold perform
  by_cases hfails : fails r.label = true
  · rw [if_pos hfails]
    omega
  · rw [if_neg hfails]
    cases hvalue : r.value with
    | some data =>
      simp only [AList.entries_insert, List.length_cons, Option.isSome_some, if_true]
      omega
    | none => exact herase

section
variable {o : Outcomes} {count : ℤ} {s t : Firestore × Rebuild} {e : Event} {n : ℕ}

theorem filter_value_eq_nil {rs : List WriteRequest} (h : ∀ r ∈ rs, r.value = none) :
    rs.filter (fun r => r.value.isSome) = [] := by
  rw [List.filter_eq_nil_iff]
  intro r hr
  simp [h r hr]

/-- What a callback adds to the database, it takes from what its rebuild may add. -/
theorem step_additions (hcount : s.2.count = count) (h : step o s e = some t) :
    t.2.count = count ∧
      t.1.entries.length + t.2.additions (writes count o.data) ≤
        s.1.entries.length + s.2.additions (writes count o.data) := by
  rcases step_cases h with ⟨-, hst, -, rfl⟩ | ⟨-, hst, -, rfl⟩ | ⟨-, hst, -, rfl⟩ |
      ⟨-, hst, -, rfl⟩ | ⟨-, hst, h⟩ | ⟨label, r, rest, -, he, rfl⟩ | ⟨-, -, h⟩
  · have hnone := filter_value_eq_nil fun r
        (hr : r ∈ (removeSpots (s.1.documents .spots)).requests) => (key_of_mem_removeSpots hr).2
    refine ⟨hcount, ?_⟩
    cases htrap : (removeSpots (s.1.documents .spots)).trapped <;>
      simp [Rebuild.additions, Rebuild.issue, hst, hnone, htrap]
  · refine ⟨hcount, ?_⟩
    simp [Rebuild.additions, Rebuild.goto, hst]
  · have hnone := filter_value_eq_nil fun r
        (hr : r ∈ (removeCities (s.1.documents .cities)).requests) =>
          (key_of_mem_removeCities hr).2
    refine ⟨hcount, ?_⟩
    simp [Rebuild.additions, Rebuild.issue, hst, hnone]
  · refine ⟨hcount, ?_⟩
    simp [Rebuild.additions, Rebuild.goto, hst]
  · rw [hcount] at h
    rcases h with ⟨spots, hd, rfl⟩ | ⟨-, rfl⟩ | ⟨-, rfl⟩
    · refine ⟨hcount, ?_⟩
      have hlen := List.length_filter_le (fun r : WriteRequest => r.value.isSome)
        (updataSpotsAPI spots).requests
      cases htrap : (updataSpotsAPI spots).trapped <;>
        simp only [Rebuild.additions, Rebuild.issue, hst, writes, hd, htrap, if_true,
          Bool.false_eq_true, if_false] <;> omega
    · exact ⟨hcount, by simp [Rebuild.additions, Rebuild.goto, hst]⟩
    · exact ⟨hcount, by simp [Rebuild.additions, Rebuild.goto, hst]⟩
  · obtain ⟨pre, post, hin, rfl, -, -⟩ := extract_eq_some he
    have hsize := length_entries_perform_le o.fails s.1 r
    refine ⟨hcount, ?_⟩
    simp only [Rebuild.additions, hin, List.filter_append, List.filter_cons, List.length_append]
    cases hvalue : r.value with
    | some data =>
      simp only [hvalue, Option.isSome_some, if_true] at hsize
      simp only [Option.isSome_some, if_true, List.length_cons]
      omega
    | none =>
      simp only [hvalue, Option.isSome_none, Bool.false_eq_true, if_false] at hsize
      simp only [Option.isSome_none, Bool.false_eq_true, if_false]
      omega
  · rcases h with ⟨hst, rfl⟩ | ⟨hst, rfl⟩ | ⟨hst, rfl⟩ <;>
      exact ⟨hcount, by simp [Rebuild.additions, Rebuild.goto, hst]⟩

/-- Every callback leaves fewer to run. -/
theorem step_callbacks (hcount : s.2.count = count) (hn : s.1.entries.length ≤ n)
    (h : step o s e = some t) :
    t.2.callbacks n (writes count o.data) < s.2.callbacks n (writes count o.data) := by
  rcases step_cases h with ⟨-, hst, -, rfl⟩ | ⟨-, hst, -, rfl⟩ | ⟨-, hst, -, rfl⟩ |
      ⟨-, hst, -, rfl⟩ | ⟨-, hst, h⟩ | ⟨label, r, rest, -, he, rfl⟩ | ⟨-, -, h⟩
  · have hlen := length_removeSpots_le (s.1.documents .spots)
    have hdocuments := length_documents_le s.1 .spots
    cases htrap : (removeSpots (s.1.documents .spots)).trapped <;>
      simp only [Rebuild.callbacks, Rebuild.issue, hst, htrap, if_true, Bool.false_eq_true,
        if_false] <;> omega
  · simp only [Rebuild.callbacks, Rebuild.goto, hst]
    omega
  · have hlen := length_removeCities_le (s.1.documents .cities)
    have hdocuments := length_documents_le s.1 .cities
    simp only [Rebuild.callbacks, Rebuild.issue, hst, removeCities_trapped, Bool.false_eq_true,
      if_false]
    omega
  · simp only [Rebuild.callbacks, Rebuild.goto, hst]
    omega
  · rw [hcount] at h
    rcases h with ⟨spots, hd, rfl⟩ | ⟨-, rfl⟩ | ⟨-, rfl⟩
    · cases htrap : (updataSpotsAPI spots).trapped <;>
        simp only [Rebuild.callbacks, Rebuild.issue, hst, writes, hd, htrap, if_true,
          Bool.false_eq_true, if_false] <;> omega
    · simp only [Rebuild.callbacks, Rebuild.goto, hst]
      omega
    · simp only [Rebuild.callbacks, Rebuild.goto, hst]
      omega
  · obtain ⟨pre, post, hin, rfl, -, -⟩ := extract_eq_some he
    simp only [Rebuild.callbacks, hin, List.length_append, List.length_cons]
    omega
  · rcases h with ⟨hst, rfl⟩ | ⟨hst, rfl⟩ | ⟨hst, rfl⟩ <;>
      simp only [Rebuild.callbacks, Rebuild.goto, hst] <;> omega

/-- Whatever a rebuild waits for can happen, until it has finished. -/
theorem Rebuild.Coherent.exists_step {p : Rebuild} (h : p.Coherent) (hp : ¬ p.Finished)
    (o : Outcomes) (db : Firestore) : ∃ e, (step o (db, p) e).isSome := by
  by_cases hnil : p.inFlight = []
  · have hempty : p.stage ≠ .trapped → p.group.left = p.group.entered := fun hst => by
      simpa [hnil] using (h.counts hst).symm
    cases hst : p.stage with
    | removeSpots => exact ⟨.getDocuments, by simp [step, getDocuments, hst]; split_ifs <;> rfl⟩
    | removeCities => exact ⟨.getDocuments, by simp [step, getDocuments, hst]; split_ifs <;> rfl⟩
    | deletingSpots => exact ⟨.notify, by simp [step, notify, hst, hempty (by simp [hst])]⟩
    | deletingCities => exact ⟨.notify, by simp [step, notify, hst, hempty (by simp [hst])]⟩
    | settingCities => exact ⟨.notify, by simp [step, notify, hst, hempty (by simp [hst])]⟩
    | getTaiwanSpots =>
      refine ⟨.dataTask, ?_⟩
      cases hd : getTaiwanSpots p.count o.data <;> simp [step, dataTask, hst, hd]
    | completed | returned | trapped =>
      exact absurd ⟨by simp [hst], hnil⟩ hp
  · obtain ⟨r, rest, hin⟩ := List.exists_cons_of_ne_nil hnil
    exact ⟨.acknowledge r.label, by simp [step, acknowledge, hin, extract]⟩

theorem Rebuild.Finished.step_eq_none {db : Firestore} {p : Rebuild} (h : p.Finished) (e : Event) :
    step o (db, p) e = none := by
  obtain ⟨hst, hnil⟩ := h
  cases e with
  | acknowledge label => simp [step, acknowledge, hnil, extract]
  | getDocuments | dataTask | notify =>
    rcases hst with hst | hst | hst <;> simp [step, getDocuments, dataTask, notify, hst]

end

section
variable {ι : Type*} [Fintype ι] {o : ι → Outcomes} {count : ι → ℤ}
  {s t : Shared Firestore ι Rebuild} {e : ι × Event} {es : List (ι × Event)} {n : ℕ}

/-- No listing can find more than `n` documents. -/
structure Bounded (o : ι → Outcomes) (count : ι → ℤ) (n : ℕ) (s : Shared Firestore ι Rebuild) :
    Prop where
  coherent : ∀ i, (s.process i).Coherent
  count_eq : ∀ i, (s.process i).count = count i
  size_le : s.store.entries.length +
    ∑ i, (s.process i).additions (writes (count i) (o i).data) ≤ n

theorem bounded_start {user : ι → User}
    (hp : ∀ i, apiButtonDidTap (user i) (count i) = some (s.process i)) :
    Bounded o count (s.store.entries.length + ∑ i, writes (count i) (o i).data) s ∧
      ∀ i n w, (s.process i).callbacks n w = 2 * n + w + 6 := by
  have hstart := fun i => start_of_didTap (hp i)
  refine ⟨⟨fun i => apiButtonDidTap_coherent (hp i), fun i => by rw [hstart], ?_⟩, fun i n w => ?_⟩
  · simp [hstart, Rebuild.additions]
  · simp [hstart, Rebuild.callbacks]

variable [DecidableEq ι]

theorem Bounded.step (hs : Bounded o count n s) (h : rebuilds o s e = some t) :
    Bounded o count n t := by
  obtain ⟨hstep, hrest⟩ := rebuilds_cases h
  obtain ⟨hcount, hsize⟩ := step_additions (hs.count_eq _) hstep
  refine ⟨fun i => ?_, fun i => ?_, ?_⟩
  · by_cases hi : i = e.1
    · exact hi ▸ step_coherent (hs.coherent _) hstep
    · rw [hrest i hi]
      exact hs.coherent i
  · by_cases hi : i = e.1
    · exact hi ▸ hcount
    · rw [hrest i hi]
      exact hs.count_eq i
  · have hle := hs.size_le
    have hothers : ∑ i ∈ Finset.univ.erase e.1,
          (t.process i).additions (writes (count i) (o i).data) =
        ∑ i ∈ Finset.univ.erase e.1,
          (s.process i).additions (writes (count i) (o i).data) :=
      Finset.sum_congr rfl fun i hi => by rw [hrest i (Finset.ne_of_mem_erase hi)]
    rw [← Finset.add_sum_erase _ _ (Finset.mem_univ e.1)] at hle ⊢
    simp only at hsize
    omega

theorem Bounded.callbacks_lt (hs : Bounded o count n s) (h : rebuilds o s e = some t) :
    ∑ i, (t.process i).callbacks n (writes (count i) (o i).data) <
      ∑ i, (s.process i).callbacks n (writes (count i) (o i).data) := by
  obtain ⟨hstep, hrest⟩ := rebuilds_cases h
  have hsize : s.store.entries.length ≤ n := (Nat.le_add_right _ _).trans hs.size_le
  have hlt := step_callbacks (hs.count_eq _) hsize hstep
  refine Finset.sum_lt_sum (fun i _ => ?_) ⟨e.1, Finset.mem_univ _, hlt⟩
  by_cases hi : i = e.1
  · exact hi ▸ hlt.le
  · rw [hrest i hi]

theorem bounded_descent : Descent (rebuilds o) (fun _ => True) (fun _ => True)
    (Bounded o count n)
    (fun s => ∑ i, (s.process i).callbacks n (writes (count i) (o i).data)) where
  allowed_of_callback _ h := h
  keeps _ _ _ hs _ h := ⟨hs.step h, (hs.callbacks_lt h).le⟩
  lowers _ _ _ hs _ h := hs.callbacks_lt h

theorem Bounded.end_iff (hs : Bounded o count n s) :
    (∀ e, rebuilds o s e = none) ↔ ∀ i, (s.process i).Finished := by
  constructor
  · intro h i
    by_contra hi
    obtain ⟨e, he⟩ := (hs.coherent i).exists_step hi (o i) s.store
    have hnone := h (i, e)
    simp only [rebuilds, interleave, Option.map_eq_none_iff] at hnone
    rw [hnone] at he
    cases he
  · rintro h ⟨i, e⟩
    simp only [rebuilds, interleave, (h i).step_eq_none, Option.map_none]

/-- However many rebuilds overlap and whatever fails: the number of their callbacks is
bounded from the start, only finished rebuilds wait for none, and every run can be
continued until all have finished. -/
theorem rebuilds_end {user : ι → User}
    (hp : ∀ i, apiButtonDidTap (user i) (count i) = some (s.process i))
    (hr : run (rebuilds o) s es = some t) :
    es.length ≤ ∑ i, (2 * (s.store.entries.length + ∑ j, writes (count j) (o j).data) +
      writes (count i) (o i).data + 6) ∧
    ((∀ e, rebuilds o t e = none) ↔ ∀ i, (t.process i).Finished) ∧
    ∃ fs u, run (rebuilds o) s (es ++ fs) = some u ∧ ∀ i, (u.process i).Finished := by
  obtain ⟨hstart, hcallbacks⟩ := bounded_start (o := o) hp
  have hbounded := invariant_of_step (fun m e m' hm h => hm.step h) hstart hr
  obtain ⟨fs, u, -, hu, hubounded, hend⟩ := bounded_descent.exists_run_to_rest hbounded
  refine ⟨?_, hbounded.end_iff, fs, u, ?_, hubounded.end_iff.mp fun e => hend e trivial⟩
  · have hlen := length_add_le (fun m e m' hm h => ⟨hm.step h, hm.callbacks_lt h⟩) hstart hr
    simp only [hcallbacks] at hlen
    omega
  · rw [run_append, hr, Option.bind_some, hu]

end

/-- Two rebuilds of which one has started to write, and how they end. -/
theorem rebuilds_end_sample :
    ∃ t, run (rebuilds sampleOverlap) ⟨∅, sampleStart⟩ (sampleEvents.take 10) = some t ∧
      ∃ fs u, run (rebuilds sampleOverlap) ⟨∅, sampleStart⟩ (sampleEvents.take 10 ++ fs) = some u ∧
        ∀ i, (u.process i).Finished := by
  have h := @rebuilds_end Bool _ sampleOverlap sampleCount ⟨∅, sampleStart⟩ _
    (sampleEvents.take 10) _ (fun _ => sampleAdmin) (fun _ => rfl) rfl
  exact ⟨_, rfl, h.2.2⟩

end TaiwanSpots
