import TaiwanSpots.FavoriteButton

/-!
# The stored arrays under any number of devices

Every array that a tap writes was computed from an array that it read, with the
id of one spot appended or erased. However reads and writes of any number of
devices interleave, the array in the database, the arrays already read and the
arrays on their way are therefore free of repetitions, and an id enters them
only where a callback appends it.
-/
namespace TaiwanSpots.FavoriteButton
open Runs

/-- Any number of devices that work on one database. -/
def devices {ι : Type*} [DecidableEq ι] :
    Shared Firestore ι Device → ι × Event → Option (Shared Firestore ι Device) :=
  interleave fun _ db d e => step (db, d) e

/-- The event is the callback of the read of a tap that has switched a heart on,
and the cell of the tap shows the spot `id`. -/
def Adds (uid id : String) (d : Device) : Event → Prop
  | .didGetDocument i => ∃ tap cell, d.taps[i]? = some tap ∧ tap.uid = uid ∧
      tap.adding = true ∧ d.pages.cell tap.cell = some cell ∧ cell.spot.id = id
  | _ => False

/-- One of the events has added the id to an array of the account. -/
def Added {ι : Type*} [DecidableEq ι] (uid : String) (s : Shared Firestore ι Device)
    (es : List (ι × Event)) (id : String) : Prop :=
  ∃ pre i e post m, es = pre ++ (i, e) :: post ∧ run devices s pre = some m ∧
    Adds uid id (m.process i) e

/-- Nothing occurs twice, and every id is known. -/
structure Clean (known : String → Prop) (ids : List String) : Prop where
  nodup : ids.Nodup
  known : ∀ id ∈ ids, known id

/-- The array that a stage carries satisfies `P`. -/
def Stage.Carries (P : List String → Prop) : Stage → Prop
  | .didGetDocument (.snapshot (some dictionary)) => P (favorites dictionary)
  | .updateData _ (some ids) => P ids
  | _ => True

/-- The arrays of an account that are in the database or on their way. -/
structure CleanArrays (known : String → Prop) (uid : String) (s : Firestore × Device) : Prop where
  stored : Clean known (stored s.1 uid)
  taps : ∀ tap ∈ s.2.taps, tap.uid = uid → tap.stage.Carries (Clean known)

theorem Clean.mono {known known' : String → Prop} {ids : List String} (h : Clean known ids)
    (hk : ∀ id, known id → known' id) : Clean known' ids :=
  ⟨h.nodup, fun id hid => hk id (h.known id hid)⟩

theorem Stage.Carries.mono {P Q : List String → Prop} {stage : Stage} (h : stage.Carries P)
    (hPQ : ∀ ids, P ids → Q ids) : stage.Carries Q := by
  unfold Stage.Carries at h ⊢
  split <;> first | exact hPQ _ h | trivial

theorem Clean.newFavoriteArray {known : String → Prop} {adding : Bool} {id : String}
    {d : Dictionary} {ids : List String} (h : Clean known (favorites d))
    (hnew : newFavoriteArray adding id d = some ids) (hid : adding = true → known id) :
    Clean known ids := by
  rcases newFavoriteArray_eq_some.mp hnew with ⟨ha, hnot, rfl⟩ | ⟨-, -, rfl⟩
  · constructor
    · rw [List.nodup_append]
      refine ⟨h.nodup, List.nodup_singleton id, fun a hmem b hb => ?_⟩
      obtain rfl := List.mem_singleton.mp hb
      rintro rfl
      exact hnot hmem
    · exact forall_mem_concat h.known (hid ha)
  · exact ⟨h.nodup.erase id, fun a hmem => h.known a (List.mem_of_mem_erase hmem)⟩

theorem CleanArrays.mono {known known' : String → Prop} {uid : String} {s : Firestore × Device}
    (h : CleanArrays known uid s) (hk : ∀ id, known id → known' id) :
    CleanArrays known' uid s where
  stored := h.stored.mono hk
  taps tap hmem hu := (h.taps tap hmem hu).mono fun _ hc => hc.mono hk

/-- A tap goes on to a stage that carries a clean array or none. -/
theorem CleanArrays.setStage {known : String → Prop} {uid : String} {s : Firestore × Device}
    {db : Firestore} {d : Device} {i : ℕ} {tap : Tap} {stage : Stage}
    (h : CleanArrays known uid s) (hd : d.taps = s.2.taps)
    (hstored : Clean known (FavoriteButton.stored db uid)) (htap : s.2.taps[i]? = some tap)
    (hstage : tap.uid = uid → stage.Carries (Clean known)) :
    CleanArrays known uid (db, d.setStage i stage) := by
  refine ⟨hstored, forall_mem_modify (fun other hmem => h.taps other (hd ▸ hmem)) ?_⟩
  intro other hother
  obtain rfl : tap = other := Option.some.inj (htap.symm.trans (hd ▸ hother))
  exact hstage

theorem step_cleanArrays {known : String → Prop} {uid : String} {s t : Firestore × Device}
    {e : Event} (hs : CleanArrays known uid s) (hadd : ∀ id, Adds uid id s.2 e → known id)
    (h : step s e = some t) : CleanArrays known uid t := by
  cases step_cases h with
  | cellForItemAt hspot howner => exact ⟨hs.stored, hs.taps⟩
  | signedOut hcell huser => exact ⟨hs.stored, hs.taps⟩
  | signedIn hcell huser =>
    exact ⟨hs.stored, forall_mem_concat hs.taps fun _ => trivial⟩
  | @getDocument i ok tap htap hstage =>
    refine hs.setStage rfl hs.stored htap fun hu => ?_
    subst hu
    cases ok with
    | false => trivial
    | true =>
      cases hdoc : s.1.lookup (userRef tap.uid) with
      | none => simp [Firestore.getDocument, hdoc, Stage.Carries]
      | some dictionary =>
        have hstored := hs.stored
        simp only [FavoriteButton.stored, hdoc, Option.map_some, Option.getD_some] at hstored
        simpa [Firestore.getDocument, hdoc, Stage.Carries] using hstored
  | @didGetDocument i tap reply cell htap hstage hcell =>
    refine CleanArrays.setStage hs rfl hs.stored htap fun hu => ?_
    have hread := hs.taps tap (List.mem_of_getElem? htap) hu
    rcases reply with _ | _ | dictionary
    · trivial
    · trivial
    · rw [hstage] at hread
      rw [didGetDocument_stage]
      split_ifs
      · trivial
      · -- the id of the cell is known, because this very event adds it
        cases hnew : newFavoriteArray tap.adding cell.spot.id dictionary with
        | none => trivial
        | some ids =>
          exact Clean.newFavoriteArray hread hnew fun ha =>
            hadd _ ⟨tap, cell, htap, hu, ha, hcell, rfl⟩
  | @updateData i ok tap dictionary ids htap hstage =>
    refine hs.setStage rfl ?_ htap fun _ => trivial
    rw [stored_update]
    split_ifs with hu
    · obtain ⟨rfl, -⟩ := hu
      have hwrite := hs.taps tap (List.mem_of_getElem? htap) rfl
      rw [hstage] at hwrite
      cases ids with
      | none => exact hs.stored
      | some ids => exact hwrite
    · exact hs.stored
  | @didUpdateData i tap ok ids cell htap hstage hcell =>
    refine CleanArrays.setStage hs rfl hs.stored htap fun _ => ?_
    rcases didUpdateData_stage s.2.pages s.2.hud tap.adding cell ok ids with hnext | hnext <;>
      rw [hnext] <;> trivial
  | reloadData htap hstage hcell =>
    exact CleanArrays.setStage hs rfl hs.stored htap fun _ => trivial

section
variable {ι : Type*} [DecidableEq ι] {uid : String} {s t : Shared Firestore ι Device}
  {es : List (ι × Event)}

theorem devices_cases {e : ι × Event} (h : devices s e = some t) :
    step (s.store, s.process e.1) e.2 = some (t.store, t.process e.1) ∧
      ∀ i, i ≠ e.1 → t.process i = s.process i := by
  obtain ⟨store, p, hstep, rfl⟩ := interleave_eq_some.mp h
  refine ⟨by simpa using hstep, fun i hi => ?_⟩
  simp [hi]

theorem Added.concat {e : ι × Event} {id : String} (h : Added uid s es id) :
    Added uid s (es ++ [e]) id := by
  obtain ⟨pre, i, e', post, m, rfl, hm, hadds⟩ := h
  exact ⟨pre, i, e', post ++ [e], m, by simp, hm, hadds⟩

/-- However many devices tap, and whatever fails or overtakes what: the stored array
holds no id twice and none that was neither there at the start nor added by a tap. -/
theorem stored_nodup_and_known (htaps : ∀ i, (s.process i).taps = [])
    (hstart : (stored s.store uid).Nodup) (hr : run devices s es = some t) :
    (stored t.store uid).Nodup ∧
      ∀ id ∈ stored t.store uid, id ∈ stored s.store uid ∨ Added uid s es id := by
  have hinv := invariant_of_prefix
    (I := fun pre m =>
      Clean (fun id => id ∈ stored s.store uid ∨ Added uid s pre id) (stored m.store uid) ∧
      ∀ i, CleanArrays (fun id => id ∈ stored s.store uid ∨ Added uid s pre id) uid
        (m.store, m.process i))
    (fun pre m e m' hrun hm hstep => by
      obtain ⟨hone, hrest⟩ := devices_cases hstep
      have hlater := fun i => (hm.2 i).mono fun id hid => hid.imp_right (Added.concat (e := e))
      have hnext := step_cleanArrays (hlater e.1)
        (fun id hadds => .inr ⟨pre, e.1, e.2, [], m, rfl, hrun, hadds⟩) hone
      refine ⟨hnext.stored, fun i => ?_⟩
      by_cases hi : i = e.1
      · subst hi
        exact hnext
      · rw [hrest i hi]
        exact ⟨hnext.stored, (hlater i).taps⟩)
    ⟨⟨hstart, fun id hid => .inl hid⟩, fun i => ⟨⟨hstart, fun id hid => .inl hid⟩,
      by simp [htaps]⟩⟩ hr
  exact ⟨hinv.1.nodup, hinv.1.known⟩

end

/-- Two devices of one account show the same two spots. -/
def sampleDevices : Shared Firestore Bool Device :=
  ⟨(sampleState (.city 0) []).1, fun _ => (sampleState (.city 0) []).2⟩

/-- Both devices make `a` a favourite from the same snapshot. -/
def sampleDoubleTap : List (Bool × Event) :=
  [(true, .favoriteButtonDidTap 0), (false, .favoriteButtonDidTap 0), (true, .getDocument 0 true),
    (false, .getDocument 0 true), (true, .didGetDocument 0), (false, .didGetDocument 0),
    (true, .updateData 0 true), (false, .updateData 0 true)]

theorem stored_nodup_and_known_sample :
    ∃ t, run devices sampleDevices sampleDoubleTap = some t ∧ (stored t.store "u").Nodup ∧
      ∀ id ∈ stored t.store "u",
        id ∈ stored sampleDevices.store "u" ∨ Added "u" sampleDevices sampleDoubleTap id := by
  have hstart : (stored sampleDevices.store "u").Nodup := by simp [sampleDevices]
  exact ⟨_, rfl, @stored_nodup_and_known Bool _ "u" sampleDevices _ sampleDoubleTap
    (fun _ => rfl) hstart rfl⟩

end TaiwanSpots.FavoriteButton
