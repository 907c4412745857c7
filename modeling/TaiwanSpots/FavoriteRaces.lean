import TaiwanSpots.FavoriteButton

/-!
# Interleaved taps on the heart

Every tap rewrites the whole stored array from the array that it read, so a tap
whose read and write enclose the write of another one undoes it. And every
callback works on the spot that its cell shows when it runs, which is another
one once the cell has been reused. Both accidents are stated as conditions on
single events, and runs without them do what was tapped.
-/
namespace TaiwanSpots.FavoriteButton
open Runs

/-- The tap has had its effect on the stored array: its array is written, or there
is nothing to write because the document that it read is as it wants it. -/
def Tap.settled (tap : Tap) : Bool :=
  match tap.stage with
  | .didGetDocument (.snapshot (some dictionary)) =>
    (newFavoriteArray tap.adding tap.spotID dictionary).isNone
  | .getDocument | .didGetDocument _ => false
  | .updateData _ ids => ids.isNone
  | .didUpdateData _ _ | .reloadData | .finished => true

/-- The last tap on a spot. -/
def lastTap (taps : List Tap) (id : String) : Option Tap :=
  (taps.filter fun tap => tap.spotID = id).getLast?

/-- The last tap on the spot is still to have its effect. -/
def Undecided (taps : List Tap) (id : String) : Prop :=
  ∃ tap, lastTap taps id = some tap ∧ tap.settled = false

theorem lastTap_singleton (tap : Tap) (id : String) :
    lastTap [tap] id = if tap.spotID = id then some tap else none := by
  by_cases hid : tap.spotID = id <;> simp [lastTap, hid]

theorem lastTap_append (l r : List Tap) (id : String) :
    lastTap (l ++ r) id = (lastTap r id).or (lastTap l id) := by
  rw [lastTap, List.filter_append, List.getLast?_append]
  rfl

theorem lastTap_modify {taps : List Tap} {i : ℕ} {tap : Tap} {f : Tap → Tap}
    (h : taps[i]? = some tap) (id : String) :
    lastTap (taps.modify i f) id = (lastTap (taps.drop (i + 1)) id).or
      ((lastTap [f tap] id).or (lastTap (taps.take i) id)) := by
  obtain ⟨hi, rfl⟩ := List.getElem?_eq_some_iff.mp h
  rw [List.modify_eq_take_cons_drop hi, ← List.singleton_append, lastTap_append, lastTap_append,
    Option.or_assoc]

theorem lastTap_split {taps : List Tap} {i : ℕ} {tap : Tap} (h : taps[i]? = some tap)
    (id : String) : lastTap taps id = (lastTap (taps.drop (i + 1)) id).or
      ((lastTap [tap] id).or (lastTap (taps.take i) id)) := by
  obtain ⟨hi, rfl⟩ := List.getElem?_eq_some_iff.mp h
  conv_lhs =>
    rw [← List.take_append_drop i taps, List.drop_eq_getElem_cons hi, ← List.singleton_append]
  rw [lastTap_append, lastTap_append, Option.or_assoc]

theorem lastTap_last {taps : List Tap} {i : ℕ} {tap : Tap} (h : taps[i]? = some tap) :
    lastTap taps tap.spotID = (lastTap (taps.drop (i + 1)) tap.spotID).or (some tap) := by
  rw [lastTap_split h, lastTap_singleton, if_pos rfl]
  rfl

theorem lastTap_own {taps : List Tap} {i : ℕ} {tap : Tap} {f : Tap → Tap}
    (h : taps[i]? = some tap) (hf : (f tap).spotID = tap.spotID) :
    lastTap (taps.modify i f) tap.spotID =
      (lastTap (taps.drop (i + 1)) tap.spotID).or (some (f tap)) := by
  rw [lastTap_modify h, lastTap_singleton, if_pos hf]
  rfl

theorem lastTap_other {taps : List Tap} {i : ℕ} {tap : Tap} {f : Tap → Tap}
    (h : taps[i]? = some tap) (hf : (f tap).spotID = tap.spotID) {id : String}
    (hid : id ≠ tap.spotID) : lastTap (taps.modify i f) id = lastTap taps id := by
  rw [lastTap_modify h, lastTap_split h, lastTap_singleton, lastTap_singleton, hf,
    if_neg (Ne.symm hid), if_neg (Ne.symm hid)]

/-- Once every tap is answered, nothing is left to be decided. -/
theorem not_undecided_of_finished {taps : List Tap}
    (h : ∀ tap ∈ taps, tap.stage.isFinished = true) (id : String) : ¬ Undecided taps id := by
  rintro ⟨tap, hlast, hsettled⟩
  have hmem : tap ∈ taps := List.mem_of_mem_filter (List.mem_of_getLast? hlast)
  have hf := h tap hmem
  cases hs : tap.stage <;> simp [hs, Stage.isFinished] at hf
  simp [Tap.settled, hs] at hsettled

/-! No update is lost. -/

/-- What is assumed of the environment: every request succeeds, and a cell keeps
showing the same spot while a tap of it is in flight. -/
def Assumed (s : Firestore × Device) : Event → Prop
  | .getDocument _ ok | .updateData _ ok => ok = true
  | .cellForItemAt c owner item => ∀ tap ∈ s.2.taps, tap.cell = c → tap.stage.isFinished = false →
      ∀ spot, s.2.pages.spotAt owner item = some spot → spot.id = tap.spotID
  | _ => True

/-- A write meets the array that its tap has read, up to the id of the tap and the ids
that a tap is still to decide. The last tap on a spot removes an id that is listed at most
once; an earlier one writes only before the last has had its effect. -/
def Undisturbed (s : Firestore × Device) : Event → Prop
  | .updateData i _ => ∀ tap dictionary ids, s.2.taps[i]? = some tap →
      tap.stage = .updateData dictionary (some ids) →
      (∀ id, id ≠ tap.spotID → ¬ Undecided s.2.taps id →
        (id ∈ favorites dictionary ↔ id ∈ stored s.1 tap.uid)) ∧
      (lastTap (s.2.taps.drop (i + 1)) tap.spotID = none ∧
          (tap.adding = false → (favorites dictionary).count tap.spotID ≤ 1) ∨
        Undecided (s.2.taps.drop (i + 1)) tap.spotID)
  | _ => True

/-- What is known of a tap of the account: its cell shows its spot, its read has
found the document, and the array to be written is computed for its spot. -/
structure Tap.OnTrack (tap : Tap) (uid : String) (p : Pages) : Prop where
  account : tap.uid = uid
  shown : tap.stage.isFinished = false → p.shownID tap.cell = some tap.spotID
  found : ∀ reply, tap.stage = .didGetDocument reply →
    ∃ dictionary, reply = .snapshot (some dictionary)
  computed : ∀ dictionary ids, tap.stage = .updateData dictionary ids →
    ids = newFavoriteArray tap.adding tap.spotID dictionary

/-- Unless it is still to be decided, an id is stored as the last tap on it wants it, or as
at the start. -/
def Settles (start : List String) (uid : String) (s : Firestore × Device) : Prop :=
  ∀ id, ¬ Undecided s.2.taps id → (id ∈ stored s.1 uid ↔
    (lastTap s.2.taps id).elim (id ∈ start) fun tap => tap.adding = true)

structure Serving (start : List String) (uid : String) (s : Firestore × Device) : Prop where
  user : s.2.currentUser = some uid
  document : (s.1.lookup (userRef uid)).isSome = true
  taps : ∀ tap ∈ s.2.taps, tap.OnTrack uid s.2.pages
  settles : Settles start uid s

/-- A tap at its next stage decides its own id if it is the last on it; what other taps have
decided stays. -/
theorem settles_setStage {start : List String} {uid : String} {s : Firestore × Device}
    {db : Firestore} {d : Device} {i : ℕ} {tap : Tap} {stage : Stage}
    (h : Settles start uid s) (hd : d.taps = s.2.taps) (htap : s.2.taps[i]? = some tap)
    (hother : ∀ id, id ≠ tap.spotID → ¬ Undecided s.2.taps id →
      (id ∈ stored db uid ↔ id ∈ stored s.1 uid))
    (hlater : ∀ later, lastTap (s.2.taps.drop (i + 1)) tap.spotID = some later →
      later.settled = true → (tap.spotID ∈ stored db uid ↔ tap.spotID ∈ stored s.1 uid))
    (hown : lastTap (s.2.taps.drop (i + 1)) tap.spotID = none →
      Tap.settled { tap with stage } = true → (tap.spotID ∈ stored db uid ↔ tap.adding = true)) :
    Settles start uid (db, d.setStage i stage) := by
  intro id hdecided
  simp only [Device.setStage, hd] at hdecided ⊢
  by_cases hid : id = tap.spotID
  · subst hid
    have hnext := lastTap_own (f := fun tap : Tap => { tap with stage }) htap rfl
    have hbefore := lastTap_last htap
    cases hl : lastTap (s.2.taps.drop (i + 1)) tap.spotID with
    | none =>
      rw [hl, Option.none_or] at hnext
      have hsettled : Tap.settled { tap with stage } = true := by
        by_contra hs
        exact hdecided ⟨_, hnext, Bool.eq_false_iff.mpr hs⟩
      rw [hnext]
      exact hown hl hsettled
    | some later =>
      rw [hl, Option.some_or] at hnext hbefore
      have hsettled : later.settled = true := by
        by_contra hs
        exact hdecided ⟨later, hnext, Bool.eq_false_iff.mpr hs⟩
      have hold : ¬ Undecided s.2.taps tap.spotID := by
        rintro ⟨other, hother, hs⟩
        obtain rfl : later = other := Option.some.inj (hbefore.symm.trans hother)
        exact absurd hsettled (by simp [hs])
      rw [hnext, hlater later hl hsettled, h tap.spotID hold, hbefore]
  · have hsame := lastTap_other (f := fun tap : Tap => { tap with stage }) htap rfl hid
    rw [Undecided, hsame] at hdecided
    rw [hsame, hother id hid hdecided]
    exact h id hdecided

/-- A stage that settles nothing new. -/
theorem Settles.setStage {start : List String} {uid : String} {s : Firestore × Device}
    {db : Firestore} {d : Device} {i : ℕ} {tap : Tap} {stage : Stage}
    (h : Settles start uid s) (hd : d.taps = s.2.taps) (htap : s.2.taps[i]? = some tap)
    (hstored : stored db uid = stored s.1 uid)
    (hsettled : Tap.settled { tap with stage } = tap.settled) :
    Settles start uid (db, d.setStage i stage) := by
  refine settles_setStage h hd htap (fun _ _ _ => by rw [hstored]) (fun _ _ _ => by rw [hstored])
    fun hnone hnow => ?_
  have hlast := lastTap_last htap
  rw [hnone, Option.none_or] at hlast
  have hdecided : ¬ Undecided s.2.taps tap.spotID := by
    rintro ⟨other, hother, hs⟩
    obtain rfl : tap = other := Option.some.inj (hlast.symm.trans hother)
    rw [← hsettled, hnow] at hs
    cases hs
  rw [hstored, h tap.spotID hdecided, hlast]
  rfl

theorem Tap.OnTrack.of_shown {tap : Tap} {uid : String} {p p' : Pages} (h : tap.OnTrack uid p)
    (hp : tap.stage.isFinished = false → p'.shownID tap.cell = p.shownID tap.cell) :
    tap.OnTrack uid p' :=
  ⟨h.account, fun hf => (hp hf).trans (h.shown hf), h.found, h.computed⟩

/-- A tap on its way to a stage without claims on it. -/
theorem Tap.OnTrack.setStage {tap : Tap} {uid : String} {p p' : Pages} {stage : Stage}
    (h : tap.OnTrack uid p) (hf : tap.stage.isFinished = false) (hp : p'.cell = p.cell)
    (hfound : ∀ reply, stage = .didGetDocument reply → ∃ d, reply = .snapshot (some d))
    (hcomputed : ∀ dictionary ids, stage = .updateData dictionary ids →
      ids = newFavoriteArray tap.adding tap.spotID dictionary) :
    Tap.OnTrack { tap with stage } uid p' := by
  refine ⟨h.account, fun _ => ?_, hfound, hcomputed⟩
  simp only [Pages.shownID, hp]
  exact h.shown hf

/-- Only the taps change, and none of them settles. -/
theorem Serving.setStage {start : List String} {uid : String} {s : Firestore × Device}
    {d : Device} {i : ℕ} {tap : Tap} {stage : Stage} (h : Serving start uid s)
    (hd : d.taps = s.2.taps) (hu : d.currentUser = s.2.currentUser)
    (hp : d.pages.cell = s.2.pages.cell) (htap : s.2.taps[i]? = some tap)
    (hsettled : Tap.settled { tap with stage } = tap.settled)
    (htrack : Tap.OnTrack { tap with stage } uid d.pages) :
    Serving start uid (s.1, d.setStage i stage) := by
  refine ⟨hu.trans h.user, h.document, ?_, fun id => ?_⟩
  · apply forall_mem_modify
    · intro other hmem
      exact (h.taps other (hd ▸ hmem)).of_shown fun _ => by
        simp only [Pages.shownID, Device.setStage_pages, hp]
    · intro other hother
      obtain rfl : tap = other := Option.some.inj (htap.symm.trans (hd ▸ hother))
      exact htrack
  · exact h.settles.setStage hd htap rfl hsettled id

/-- A read that is answered. The tap is settled at once if it finds what it wants. -/
theorem Serving.getDocument {start : List String} {uid : String} {s : Firestore × Device} {i : ℕ}
    {tap : Tap} (hs : Serving start uid s) (htap : s.2.taps[i]? = some tap)
    (hstage : tap.stage = .getDocument) : Serving start uid
      (s.1, s.2.setStage i (.didGetDocument (s.1.getDocument (userRef tap.uid) true))) := by
  have htrack := hs.taps tap (List.mem_of_getElem? htap)
  obtain rfl := htrack.account
  obtain ⟨dictionary, hdoc⟩ := Option.isSome_iff_exists.mp hs.document
  have hreply : s.1.getDocument (userRef tap.uid) true = .snapshot (some dictionary) := by
    simp [Firestore.getDocument, hdoc]
  have hfav : stored s.1 tap.uid = favorites dictionary := stored_of_lookup hdoc
  have hnext : Tap.OnTrack { tap with stage := .didGetDocument (.snapshot (some dictionary)) }
      tap.uid s.2.pages :=
    htrack.setStage (by simp [hstage, Stage.isFinished]) rfl (by simp) (by simp)
  rw [hreply]
  cases hnew : newFavoriteArray tap.adding tap.spotID dictionary with
  | some ids =>
    have hsettled : Tap.settled { tap with stage := .didGetDocument (.snapshot (some dictionary)) }
        = tap.settled := by
      simp [Tap.settled, hstage, hnew]
    exact hs.setStage rfl rfl rfl htap hsettled hnext
  | none =>
    have hwanted : tap.spotID ∈ stored s.1 tap.uid ↔ tap.adding = true := by
      rw [hfav]
      exact newFavoriteArray_eq_none.mp hnew
    refine ⟨hs.user, hs.document, forall_mem_modify hs.taps fun other hother => ?_, ?_⟩
    · obtain rfl : tap = other := Option.some.inj (htap.symm.trans hother)
      exact hnext
    · exact settles_setStage hs.settles rfl htap (fun _ _ _ => Iff.rfl) (fun _ _ _ => Iff.rfl)
        fun _ _ => hwanted

/-- A write that succeeds, and that nothing has disturbed. -/
theorem Serving.updateData {start : List String} {uid : String} {s : Firestore × Device} {i : ℕ}
    {tap : Tap} {dictionary : Dictionary} {ids : Option (List String)} (hs : Serving start uid s)
    (htap : s.2.taps[i]? = some tap) (hstage : tap.stage = .updateData dictionary ids)
    (hg : Undisturbed s (.updateData i true)) : Serving start uid
      ((update s.1 tap.uid ids true).1,
        s.2.setStage i (.didUpdateData (update s.1 tap.uid ids true).2 ids)) := by
  have htrack := hs.taps tap (List.mem_of_getElem? htap)
  obtain rfl := htrack.account
  have hids := htrack.computed _ _ hstage
  have hok : (update s.1 tap.uid ids true).2 = true := by
    rw [update_snd, hs.document]
    rfl
  have hstored := stored_update s.1 tap.uid ids true tap.uid
  rw [if_pos ⟨rfl, hok⟩] at hstored
  have hdoc : ((update s.1 tap.uid ids true).1.lookup (userRef tap.uid)).isSome = true :=
    (isSome_lookup_update ..).trans hs.document
  have hnext : Tap.OnTrack { tap with stage := .didUpdateData true ids } tap.uid s.2.pages :=
    htrack.setStage (by simp [hstage, Stage.isFinished]) rfl (by simp) (by simp)
  rw [hok]
  refine ⟨hs.user, hdoc, forall_mem_modify hs.taps fun other hother => ?_, ?_⟩
  · obtain rfl : tap = other := Option.some.inj (htap.symm.trans hother)
    exact hnext
  cases ids with
  | none =>
    exact hs.settles.setStage rfl htap hstored (by simp [Tap.settled, hstage])
  | some ids =>
    obtain ⟨hothers, hown⟩ := hg tap dictionary ids htap hstage
    refine settles_setStage hs.settles rfl htap (fun id hid hdecided => ?_)
      (fun later hlater hsettled => ?_) fun hnone _ => ?_
    · rw [hstored, Option.getD_some, ← hothers id hid hdecided, ← List.count_pos_iff,
        count_newFavoriteArray hids.symm hid, List.count_pos_iff]
    · rcases hown with ⟨hnone, -⟩ | ⟨last, hlast, hunsettled⟩
      · cases hnone.symm.trans hlater
      · obtain rfl : later = last := Option.some.inj (hlater.symm.trans hlast)
        cases hsettled.symm.trans hunsettled
    · rcases hown with ⟨-, hone⟩ | ⟨last, hlast, -⟩
      · rw [hstored]
        exact mem_newFavoriteArray hids.symm hone
      · cases hnone.symm.trans hlast

theorem step_serving {start : List String} {uid : String} {s t : Firestore × Device} {e : Event}
    (hs : Serving start uid s) (ha : Assumed s e) (hg : Undisturbed s e)
    (h : step s e = some t) : Serving start uid t := by
  cases step_cases h with
  | @cellForItemAt c owner item spot hspot howner =>
    refine ⟨hs.user, hs.document, fun tap hmem => ?_, hs.settles⟩
    refine (hs.taps tap hmem).of_shown fun hf => ?_
    by_cases hc : tap.cell = c
    · rw [(hs.taps tap hmem).shown hf, ← ha tap hmem hc hf spot hspot]
      simp [Pages.shownID, hc]
    · simp [Pages.shownID, Function.update_of_ne hc]
  | signedOut hcell huser =>
    have huser' := hs.user
    simp [huser] at huser'
  | @signedIn c cell uid' hcell huser =>
    obtain rfl : uid' = uid := Option.some.inj (huser.symm.trans hs.user)
    refine ⟨huser, hs.document, forall_mem_concat (fun tap hmem => ?_) ?_,
      fun id hdecided => ?_⟩
    · exact (hs.taps tap hmem).of_shown fun _ => by simp
    · refine ⟨rfl, fun _ => ?_, by simp, by simp⟩
      rw [Pages.shownID_setSelected]
      simp [Pages.shownID, hcell]
    · by_cases hid : cell.spot.id = id
      · refine absurd ⟨⟨c, uid', cell.spot.id, !cell.isSelected, .getDocument⟩, ?_, rfl⟩ hdecided
        rw [lastTap_append, lastTap_singleton, if_pos hid]
        rfl
      · have hsame := lastTap_append s.2.taps
          [⟨c, uid', cell.spot.id, !cell.isSelected, .getDocument⟩] id
        rw [lastTap_singleton, if_neg hid, Option.none_or] at hsame
        rw [Undecided, hsame] at hdecided
        rw [hsame]
        exact hs.settles id hdecided
  | @getDocument i ok tap htap hstage =>
    obtain rfl : ok = true := ha
    exact hs.getDocument htap hstage
  | @didGetDocument i tap reply cell htap hstage hcell =>
    have htrack := hs.taps tap (List.mem_of_getElem? htap)
    have hf : tap.stage.isFinished = false := by simp [hstage, Stage.isFinished]
    obtain ⟨dictionary, rfl⟩ := htrack.found _ hstage
    have hid : cell.spot.id = tap.spotID := by
      have hshown := htrack.shown hf
      simpa [Pages.shownID, hcell] using hshown
    rw [didGetDocument_stage, hid]
    split_ifs with hnone
    · exact hs.setStage rfl rfl (by simp) htap (by simp [Tap.settled, hstage, hnone.2])
        (htrack.setStage hf (by simp) (by simp) (by simp))
    · refine hs.setStage rfl rfl (by simp) htap (by simp [Tap.settled, hstage])
        (htrack.setStage hf (by simp) (by simp) ?_)
      rintro _ _ ⟨⟩
      rfl
  | @updateData i ok tap dictionary ids htap hstage =>
    obtain rfl : ok = true := ha
    exact hs.updateData htap hstage hg
  | @didUpdateData i tap ok ids cell htap hstage hcell =>
    have htrack := hs.taps tap (List.mem_of_getElem? htap)
    have hf : tap.stage.isFinished = false := by simp [hstage, Stage.isFinished]
    rcases didUpdateData_stage s.2.pages s.2.hud tap.adding cell ok ids with hnext | hnext <;>
      rw [hnext] <;>
      exact hs.setStage rfl rfl (by simp) htap (by simp [Tap.settled, hstage])
        (htrack.setStage hf (by simp) (by simp) (by simp))
  | @reloadData i tap cell htap hstage hcell =>
    have htrack := hs.taps tap (List.mem_of_getElem? htap)
    have hf : tap.stage.isFinished = false := by simp [hstage, Stage.isFinished]
    exact hs.setStage rfl rfl (by simp) htap (by simp [Tap.settled, hstage])
      (htrack.setStage hf (by simp) (by simp) (by simp))

/-- Of taps that nothing disturbs no update is lost: an id is stored if and only if
the last tap on it switched its heart on. -/
theorem no_favorite_lost {uid : String} {s t : Firestore × Device} {es : List Event}
    (huser : s.2.currentUser = some uid) (hdoc : (s.1.lookup (userRef uid)).isSome = true)
    (htaps : s.2.taps = []) (hr : run step s es = some t) (ha : Along step Assumed s es)
    (hg : Along step Undisturbed s es) (hidle : t.2.idle = true) (id : String) :
    id ∈ stored t.1 uid ↔
      (lastTap t.2.taps id).elim (id ∈ stored s.1 uid) fun tap => tap.adding = true := by
  have h0 : Serving (stored s.1 uid) uid s :=
    ⟨huser, hdoc, by simp [htaps], fun id _ => by simp [htaps, lastTap]⟩
  have ht := invariant (I := Serving (stored s.1 uid) uid)
    (fun m e m' hm hguard hstep => step_serving hm hguard.1 hguard.2 hstep)
    h0 (along_and.mpr ⟨ha, hg⟩) hr
  exact ht.settles id (not_undecided_of_finished (List.all_eq_true.mp hidle) id)

/-- Both spots are tapped; the second tap is read after the first is written. -/
def sampleTaps : List Event :=
  [.favoriteButtonDidTap 0, .favoriteButtonDidTap 1, .getDocument 0 true, .didGetDocument 0,
    .updateData 0 true, .getDocument 1 true]

/-- Meanwhile the heart of `a` is switched off again. -/
def sampleReturn : List Event :=
  [.favoriteButtonDidTap 0, .didGetDocument 1, .updateData 1 true, .getDocument 2 true,
    .didUpdateData 0, .didGetDocument 2, .updateData 2 true, .didUpdateData 2, .didUpdateData 1]

theorem no_favorite_lost_sample :
    ∃ t, run step (sampleState (.city 0) []) (sampleTaps ++ sampleReturn) = some t ∧
      stored t.1 "u" = ["b"] ∧
      ∀ id, id ∈ stored t.1 "u" ↔ (lastTap t.2.taps id).elim
        (id ∈ stored (sampleState (.city 0) []).1 "u") fun tap => tap.adding = true := by
  refine ⟨_, rfl, rfl, @no_favorite_lost "u" (sampleState (.city 0) []) _
    (sampleTaps ++ sampleReturn) rfl rfl rfl rfl ?_ ?_ rfl⟩
  · refine along_append.mpr ⟨?_, fun m hm => ?_⟩
    · exact along_step trivial rfl <| along_step trivial rfl <| along_step rfl rfl <|
        along_step trivial rfl <| along_step rfl rfl <| along_step rfl rfl trivial
    · cases hm
      exact along_step trivial rfl <| along_step trivial rfl <| along_step rfl rfl <|
        along_step rfl rfl <| along_step trivial rfl <| along_step trivial rfl <|
        along_step rfl rfl <| along_step trivial rfl <| along_step trivial rfl trivial
  · refine along_append.mpr ⟨?_, fun m hm => ?_⟩
    · refine along_step trivial rfl <| along_step trivial rfl <| along_step trivial rfl <|
        along_step trivial rfl <| along_step ?_ rfl <| along_step trivial rfl trivial
      rintro tap dictionary ids ⟨⟩ ⟨⟩
      exact ⟨fun _ _ _ => Iff.rfl, .inl ⟨rfl, nofun⟩⟩
    · cases hm
      refine along_step trivial rfl <| along_step trivial rfl <| along_step ?_ rfl <|
        along_step trivial rfl <| along_step trivial rfl <| along_step trivial rfl <|
        along_step ?_ rfl <| along_step trivial rfl <| along_step trivial rfl trivial
      · rintro tap dictionary ids ⟨⟩ ⟨⟩
        exact ⟨fun _ _ _ => Iff.rfl, .inl ⟨rfl, nofun⟩⟩
      · rintro tap dictionary ids ⟨⟩ ⟨⟩
        exact ⟨fun _ _ _ => Iff.rfl, .inl ⟨rfl, fun _ => by decide⟩⟩

/-- Two spots are tapped before either tap has read the array: the second write
removes what the first has added. -/
theorem favorite_lost :
    ∃ es t, HeartsAgree (sampleState (.city 0) []) "u" ∧
      Along step Assumed (sampleState (.city 0) []) es ∧
      run step (sampleState (.city 0) []) es = some t ∧ t.2.idle = true ∧
      ¬ ("a" ∈ stored t.1 "u" ↔ (lastTap t.2.taps "a").elim
        ("a" ∈ stored (sampleState (.city 0) []).1 "u") fun tap => tap.adding = true) := by
  refine ⟨[.favoriteButtonDidTap 0, .favoriteButtonDidTap 1, .getDocument 0 true,
    .getDocument 1 true, .didGetDocument 0, .didGetDocument 1, .updateData 0 true,
    .updateData 1 true, .didUpdateData 0, .didUpdateData 1], _,
    heartsAgree_sampleState 0 [], ?_, rfl, rfl, ?_⟩
  · exact along_step trivial rfl <| along_step trivial rfl <| along_step rfl rfl <|
      along_step rfl rfl <| along_step trivial rfl <| along_step trivial rfl <|
      along_step rfl rfl <| along_step rfl rfl <| along_step trivial rfl <|
      along_step trivial rfl trivial
  · intro h
    exact absurd (h.mpr rfl) (by decide)

/-! A tap acts on the spot it was made on. -/

/-- The tap that an event belongs to. -/
def Device.tapOf (d : Device) : Event → Option Tap
  | .getDocument i _ | .didGetDocument i | .updateData i _ | .didUpdateData i | .reloadData i =>
    d.taps[i]?
  | .cellForItemAt _ _ _ | .favoriteButtonDidTap _ => none

/-- A callback that reads the spot of its cell, which is that of a document that was found
and that of a removal from a favourites page, runs while the cell shows the spot of the tap;
and a write meets the array that was read, up to the id of the tap. -/
def Steady (s : Firestore × Device) : Event → Prop
  | .didGetDocument i => ∀ tap dictionary, s.2.taps[i]? = some tap →
      tap.stage = .didGetDocument (.snapshot (some dictionary)) →
      s.2.pages.shownID tap.cell = some tap.spotID
  | .updateData i ok => ∀ tap dictionary ids, s.2.taps[i]? = some tap →
      tap.stage = .updateData dictionary (some ids) → ok = true →
      ∀ id, id ≠ tap.spotID → (favorites dictionary).count id = (stored s.1 tap.uid).count id
  | .didUpdateData i => ∀ tap ids cell page, s.2.taps[i]? = some tap →
      tap.stage = .didUpdateData true ids → tap.adding = false →
      s.2.pages.cell tap.cell = some cell → cell.owner = .favorites page →
      cell.spot.id = tap.spotID
  | _ => True

/-- The only id that an event adds to or removes from a stored array or from the
spots of a favourites page is that of the spot that its tap was made on. -/
def ActsOnItsSpot (s : Firestore × Device) (e : Event) (t : Firestore × Device) : Prop :=
  (∀ uid id, (stored t.1 uid).count id ≠ (stored s.1 uid).count id →
    ∃ tap, s.2.tapOf e = some tap ∧ tap.spotID = id) ∧
  ∀ page id, (t.2.pages.favoriteIDs page).count id ≠ (s.2.pages.favoriteIDs page).count id →
    ∃ tap, s.2.tapOf e = some tap ∧ tap.spotID = id

/-- The arrays on their way to the server are computed for the spots of their taps. -/
def Computed (s : Firestore × Device) : Prop :=
  ∀ tap ∈ s.2.taps, ∀ dictionary ids, tap.stage = .updateData dictionary (some ids) →
    newFavoriteArray tap.adding tap.spotID dictionary = some ids

theorem step_computed {s t : Firestore × Device} {e : Event} (hs : Computed s)
    (hg : Steady s e) (h : step s e = some t) : Computed t := by
  have hmove : ∀ (d : Device) (i : ℕ) (stage : Stage), d.taps = s.2.taps →
      (∀ dictionary ids, stage ≠ .updateData dictionary (some ids)) →
      ∀ db, Computed (db, d.setStage i stage) := by
    intro d i stage hd hstage db
    exact forall_mem_modify (hd ▸ hs) fun tap _ dictionary ids h => absurd h (hstage _ _)
  cases step_cases h with
  | cellForItemAt hspot howner => exact hs
  | signedOut hcell huser => exact hs
  | signedIn hcell huser =>
    exact forall_mem_concat hs (by simp)
  | getDocument htap hstage => exact hmove _ _ _ rfl (by simp) _
  | @didGetDocument i tap reply cell htap hstage hcell =>
    rcases reply with _ | _ | dictionary
    · exact hmove _ _ _ rfl (by simp [didGetDocument]) _
    · exact hmove _ _ _ rfl (by simp [didGetDocument]) _
    · have hid : cell.spot.id = tap.spotID := by
        have hshown := hg tap dictionary htap hstage
        simpa [Pages.shownID, hcell] using hshown
      refine forall_mem_modify hs fun other hother => ?_
      obtain rfl : tap = other := Option.some.inj (htap.symm.trans hother)
      rw [didGetDocument_stage, hid]
      split_ifs
      · simp
      · intro dictionary' ids heq
        obtain ⟨rfl, hids⟩ := Stage.updateData.inj heq
        exact hids
  | updateData htap hstage => exact hmove _ _ _ rfl (by simp) _
  | @didUpdateData i tap ok ids cell htap hstage hcell =>
    rcases didUpdateData_stage s.2.pages s.2.hud tap.adding cell ok ids with hnext | hnext <;>
      exact hmove _ _ _ rfl (by simp [hnext]) s.1
  | reloadData htap hstage hcell => exact hmove _ _ _ rfl (by simp) s.1

theorem step_actsOnItsSpot {s t : Firestore × Device} {e : Event} (hs : Computed s)
    (hg : Steady s e) (h : step s e = some t) : ActsOnItsSpot s e t := by
  cases step_cases h with
  | cellForItemAt hspot howner => exact ⟨fun _ _ h => absurd rfl h, fun _ _ h => absurd rfl h⟩
  | signedOut hcell huser => exact ⟨fun _ _ h => absurd rfl h, fun _ _ h => absurd rfl h⟩
  | signedIn hcell huser => exact ⟨fun _ _ h => absurd rfl h, fun _ _ h => absurd rfl h⟩
  | getDocument htap hstage => exact ⟨fun _ _ h => absurd rfl h, fun _ _ h => absurd rfl h⟩
  | didGetDocument htap hstage hcell =>
    exact ⟨fun _ _ h => absurd rfl h, fun _ _ h => absurd (by simp) h⟩
  | @updateData i ok tap dictionary ids htap hstage =>
    refine ⟨fun uid id hne => ⟨tap, htap, ?_⟩, fun _ _ h => absurd rfl h⟩
    by_contra hid
    apply hne
    rw [stored_update]
    split_ifs with hcond
    · obtain ⟨rfl, hok⟩ := hcond
      rw [update_snd, Bool.and_eq_true] at hok
      cases ids with
      | none => rfl
      | some ids =>
        have hnew := hs tap (List.mem_of_getElem? htap) dictionary ids hstage
        rw [Option.getD_some, count_newFavoriteArray hnew (Ne.symm hid)]
        exact hg tap dictionary ids htap hstage hok.1 id (Ne.symm hid)
    · rfl
  | @didUpdateData i tap ok ids cell htap hstage hcell =>
    refine ⟨fun _ _ h => absurd rfl h, fun page id hne => ⟨tap, htap, ?_⟩⟩
    by_contra hid
    apply hne
    apply count_favoriteIDs_didUpdateData
    intro hadding hok page' howner
    rw [hok] at hstage
    rw [hg tap ids cell page' htap hstage hadding hcell howner]
    exact Ne.symm hid
  | reloadData htap hstage hcell =>
    exact ⟨fun _ _ h => absurd rfl h, fun _ _ h => absurd (by simp) h⟩

/-- In a steady run every event changes the id of its own tap only. -/
theorem taps_act_on_their_spots {s : Firestore × Device} {es : List Event}
    (htaps : s.2.taps = []) (hg : Along step Steady s es) :
    Along step (fun m e => ∀ m', step m e = some m' → ActsOnItsSpot m e m') s es := by
  apply along_of_invariant (I := Computed)
  · intro m e hm hguard m' hstep
    exact step_actsOnItsSpot hm hguard hstep
  · intro m e m' hm hguard hstep
    exact step_computed hm hguard hstep
  · simp [Computed, htaps]
  · exact hg

/-- A cell is reused for `b` while the write of the tap on `a` is on its way, and is tapped
again before the callback of that write. -/
def sampleReuse : List Event :=
  [.favoriteButtonDidTap 0, .getDocument 0 true, .didGetDocument 0, .cellForItemAt 0 (.city 0) 1,
    .updateData 0 true, .favoriteButtonDidTap 0, .didUpdateData 0, .getDocument 1 true,
    .didGetDocument 1, .updateData 1 true]

theorem taps_act_on_their_spots_sample :
    ∃ t, run step (sampleState (.city 0) []) sampleReuse = some t ∧
      stored t.1 "u" = ["a", "b"] ∧
      Along step (fun m e => ∀ m', step m e = some m' → ActsOnItsSpot m e m')
        (sampleState (.city 0) []) sampleReuse := by
  refine ⟨_, rfl, rfl, @taps_act_on_their_spots (sampleState (.city 0) []) sampleReuse rfl ?_⟩
  refine along_step trivial rfl <| along_step trivial rfl <| along_step ?_ rfl <|
    along_step trivial rfl <| along_step ?_ rfl <| along_step trivial rfl <|
    along_step ?_ rfl <| along_step trivial rfl <| along_step ?_ rfl <| along_step ?_ rfl trivial
  · rintro tap dictionary ⟨⟩ ⟨⟩
    rfl
  · rintro tap dictionary ids ⟨⟩ ⟨⟩ -
    exact fun _ _ => rfl
  · rintro tap ids cell page ⟨⟩ ⟨⟩ ⟨⟩
  · rintro tap dictionary ⟨⟩ ⟨⟩
    rfl
  · rintro tap dictionary ids ⟨⟩ ⟨⟩ -
    exact fun _ _ => rfl

/-- The cell is reused between the tap and the callback: the tap on `a` adds `b`. -/
theorem tap_acts_on_reused_cell :
    ∃ es, (run step (sampleState (.city 0) []) es).isSome = true ∧
      ¬ Along step (fun m e => ∀ m', step m e = some m' → ActsOnItsSpot m e m')
        (sampleState (.city 0) []) es := by
  refine ⟨[.favoriteButtonDidTap 0, .getDocument 0 true, .cellForItemAt 0 (.city 0) 1,
    .didGetDocument 0, .updateData 0 true], rfl, fun h => ?_⟩
  have hupdate := ((((h.2 _ rfl).2 _ rfl).2 _ rfl).2 _ rfl).1 _ rfl
  obtain ⟨tap, htap, hid⟩ := hupdate.1 "u" "b" (by decide)
  cases htap
  exact absurd hid (by decide)

end TaiwanSpots.FavoriteButton
