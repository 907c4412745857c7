import TaiwanSpots.FavoriteButton

/-!
# One tap at a time

A tap whose requests are answered before anything else happens has one outcome
for each way in which the server can answer. The outcome is computed once; then
the hearts of a page are followed over taps and reconfigured cells, and the
state after a failed tap is compared with the one before it.
-/
namespace TaiwanSpots.FavoriteButton
open Runs

/-- What the server answers to the read and to the write of a tap. -/
structure Answers where
  getDocument : Bool
  updateData : Bool

/-- The event that the last tap waits for. -/
def pending (ok : Answers) (d : Device) : Option Event :=
  d.taps.getLast?.bind fun tap =>
    match tap.stage with
    | .getDocument => some (.getDocument (d.taps.length - 1) ok.getDocument)
    | .didGetDocument _ => some (.didGetDocument (d.taps.length - 1))
    | .updateData _ _ => some (.updateData (d.taps.length - 1) ok.updateData)
    | .didUpdateData _ _ => some (.didUpdateData (d.taps.length - 1))
    | .reloadData => some (.reloadData (d.taps.length - 1))
    | .finished => none

/-- At most `n` events of the last tap. -/
def answer (ok : Answers) : ℕ → Firestore × Device → Option (Firestore × Device)
  | 0, s => some s
  | n + 1, s =>
    match pending ok s.2 with
    | some e => (step s e).bind (answer ok n)
    | none => some s

/-- A tap with all its events; none has more than five. -/
def tapAlone (ok : Answers) (s : Firestore × Device) (c : ℕ) : Option (Firestore × Device) :=
  (step s (.favoriteButtonDidTap c)).bind (answer ok 5)

theorem answer_run {ok : Answers} {n : ℕ} {s t : Firestore × Device} (h : answer ok n s = some t) :
    ∃ es, run step s es = some t := by
  induction n generalizing s with
  | zero => exact ⟨[], h⟩
  | succ n ih =>
    simp only [answer] at h
    split at h
    · obtain ⟨m, hm, h⟩ := Option.bind_eq_some_iff.mp h
      obtain ⟨es, hes⟩ := ih h
      exact ⟨_ :: es, run_cons.mpr ⟨m, hm, hes⟩⟩
    · exact ⟨[], h⟩

/-- The tap is a run of the device. -/
theorem tapAlone_run {ok : Answers} {s t : Firestore × Device} {c : ℕ}
    (h : tapAlone ok s c = some t) : ∃ es, run step s (.favoriteButtonDidTap c :: es) = some t := by
  obtain ⟨m, hm, h⟩ := Option.bind_eq_some_iff.mp h
  obtain ⟨es, hes⟩ := answer_run h
  exact ⟨es, run_cons.mpr ⟨m, hm, hes⟩⟩

theorem pending_of_idle {ok : Answers} {d : Device} (h : d.idle = true) : pending ok d = none := by
  cases hlast : d.taps.getLast? with
  | none => simp [pending, hlast]
  | some tap =>
    have hf := List.all_eq_true.mp h tap (List.mem_of_getLast? hlast)
    cases hstage : tap.stage <;> simp only [hstage, Stage.isFinished] at hf <;> try cases hf
    simp [pending, hlast, hstage]

section
variable {ok : Answers} {n : ℕ} {db : Firestore} {user : Option String} {hud : HUD} {p : Pages}
  {taps : List Tap} {c : ℕ} {uid id : String} {adding : Bool} {cell : SpotCollectionViewCell}

theorem answer_getDocument :
    answer ok (n + 1) (db, ⟨user, hud, p, taps ++ [⟨c, uid, id, adding, .getDocument⟩]⟩) =
      answer ok n (db, ⟨user, hud, p, taps ++ [⟨c, uid, id, adding,
        .didGetDocument (db.getDocument (userRef uid) ok.getDocument)⟩]⟩) := by
  simp [answer, pending, step, advance, Device.setStage, modify_concat]

theorem answer_didGetDocument {reply : Reply} (hcell : p.cell c = some cell) :
    answer ok (n + 1) (db, ⟨user, hud, p, taps ++ [⟨c, uid, id, adding,
        .didGetDocument reply⟩]⟩) =
      answer ok n (db, ⟨user, hud, (didGetDocument p adding cell reply).1,
        taps ++ [⟨c, uid, id, adding, (didGetDocument p adding cell reply).2⟩]⟩) := by
  simp [answer, pending, step, advance, hcell, Device.setStage, modify_concat]

theorem answer_updateData {dictionary : Dictionary} {ids : Option (List String)} :
    answer ok (n + 1) (db, ⟨user, hud, p, taps ++ [⟨c, uid, id, adding,
        .updateData dictionary ids⟩]⟩) =
      answer ok n ((update db uid ids ok.updateData).1, ⟨user, hud, p, taps ++
        [⟨c, uid, id, adding, .didUpdateData (update db uid ids ok.updateData).2 ids⟩]⟩) := by
  simp [answer, pending, step, advance, Device.setStage, modify_concat]

theorem answer_didUpdateData {written : Bool} {ids : Option (List String)}
    (hcell : p.cell c = some cell) :
    answer ok (n + 1) (db, ⟨user, hud, p, taps ++ [⟨c, uid, id, adding,
        .didUpdateData written ids⟩]⟩) =
      answer ok n (db, ⟨user, (didUpdateData p hud adding cell written ids).2.1,
        (didUpdateData p hud adding cell written ids).1, taps ++ [⟨c, uid, id, adding,
          (didUpdateData p hud adding cell written ids).2.2⟩]⟩) := by
  simp [answer, pending, step, advance, hcell, Device.setStage, modify_concat]

theorem answer_reloadData (hcell : p.cell c = some cell) :
    answer ok (n + 1) (db, ⟨user, hud, p, taps ++ [⟨c, uid, id, adding, .reloadData⟩]⟩) =
      answer ok n (db, ⟨user, (reloadData p hud cell).2, (reloadData p hud cell).1,
        taps ++ [⟨c, uid, id, adding, .finished⟩]⟩) := by
  simp [answer, pending, step, advance, hcell, Device.setStage, modify_concat]

theorem idle_concat (htaps : taps.all (fun tap => tap.stage.isFinished) = true) :
    Device.idle ⟨user, hud, p, taps ++ [⟨c, uid, id, adding, .finished⟩]⟩ = true := by
  simp only [Device.idle, List.all_append, htaps]
  rfl

theorem answer_finished :
    answer ok n (db, ⟨user, hud, p, taps ++ [⟨c, uid, id, adding, .finished⟩]⟩) =
      some (db, ⟨user, hud, p, taps ++ [⟨c, uid, id, adding, .finished⟩]⟩) := by
  cases n with
  | zero => rfl
  | succ n => simp [answer, pending]

/-- Every event of a tap on a configured cell finds what it needs. -/
theorem answer_isSome {stage : Stage} (hcell : p.cell c = some cell) :
    (answer ok n (db, ⟨user, hud, p, taps ++ [⟨c, uid, id, adding, stage⟩]⟩)).isSome = true := by
  induction n generalizing db hud p stage with
  | zero => rfl
  | succ n ih =>
    cases stage with
    | getDocument =>
      rw [answer_getDocument]
      exact ih hcell
    | didGetDocument reply =>
      rw [answer_didGetDocument hcell]
      exact ih (by rw [didGetDocument_cell, hcell])
    | updateData dictionary ids =>
      rw [answer_updateData]
      exact ih hcell
    | didUpdateData written ids =>
      rw [answer_didUpdateData hcell]
      exact ih (by rw [didUpdateData_cell, hcell])
    | reloadData =>
      rw [answer_reloadData hcell]
      exact ih (by rw [reloadData_cell, hcell])
    | finished => simp only [answer_finished, Option.isSome_some]

/-- A read that fails, finds nothing or finds nothing to change. -/
theorem answer_unsent {t : Firestore × Device}
    (htaps : taps.all (fun tap => tap.stage.isFinished) = true) (hcell : p.cell c = some cell)
    (hnone : ok.getDocument = true → ∀ dictionary, db.lookup (userRef uid) = some dictionary →
      newFavoriteArray adding cell.spot.id dictionary = none)
    (h : answer ok 5 (db, ⟨user, hud, p, taps ++ [⟨c, uid, id, adding, .getDocument⟩]⟩) = some t) :
    t.2.idle = true ∧ t.2.currentUser = user ∧
      (∀ uid', stored t.1 uid' = stored db uid') ∧ t.2.pages = p ∧ t.2.hud = hud := by
  rw [answer_getDocument, answer_didGetDocument hcell] at h
  cases hreply : db.getDocument (userRef uid) ok.getDocument with
  | error =>
    simp only [hreply, didGetDocument, answer_finished] at h
    obtain rfl := Option.some.inj h
    exact ⟨idle_concat htaps, rfl, fun _ => rfl, rfl, rfl⟩
  | snapshot data =>
    cases data with
    | none =>
      simp only [hreply, didGetDocument, answer_finished] at h
      obtain rfl := Option.some.inj h
      exact ⟨idle_concat htaps, rfl, fun _ => rfl, rfl, rfl⟩
    | some dictionary =>
      have hread : ok.getDocument = true ∧ db.lookup (userRef uid) = some dictionary := by
        unfold Firestore.getDocument at hreply
        split_ifs at hreply with hok
        exact ⟨hok, Reply.snapshot.inj hreply⟩
      have hnew := hnone hread.1 dictionary hread.2
      simp only [hreply, didGetDocument, hnew] at h
      cases adding with
      | false =>
        simp only [Bool.false_eq_true, if_false, answer_finished] at h
        obtain rfl := Option.some.inj h
        exact ⟨idle_concat htaps, rfl, fun _ => rfl, rfl, rfl⟩
      | true =>
        simp only [if_true] at h
        rw [answer_updateData, answer_didUpdateData hcell] at h
        simp only [didUpdateData, if_true, answer_finished] at h
        obtain rfl := Option.some.inj h
        refine ⟨idle_concat htaps, rfl, fun uid' => ?_, rfl, rfl⟩
        rw [stored_update]
        split_ifs with hu
        · rw [hu.1, Option.getD_none]
        · rfl

/-- The pages once the callbacks of a tap that sends an array have run. -/
def afterWrite (p : Pages) (cell : SpotCollectionViewCell) (ids : List String) (written : Bool) :
    Pages :=
  match cell.owner with
  | .city page => p.setCollectionFavorites page ids
  | .favorites page =>
    if cell.isSelected then
      let p := p.setFavorites page ids
      (if written then (p.setFavorites page ids).removeFavoriteSpot page cell.spot
        else p).reloadFavorites page
    else p

@[simp] theorem afterWrite_cell (p : Pages) (cell : SpotCollectionViewCell) (ids : List String)
    (written : Bool) : (afterWrite p cell ids written).cell = p.cell := by
  cases howner : cell.owner with
  | city page => simp [afterWrite, howner]
  | favorites page =>
    simp only [afterWrite, howner]
    split_ifs <;> rfl

/-- The indicator once the callbacks of a tap that sends an array have run. -/
def hudAfterWrite (hud : HUD) (cell : SpotCollectionViewCell) (written : Bool) : HUD :=
  if cell.isSelected then
    match cell.owner with
    | .city _ => if written then hud.hideLoading else hud
    | .favorites _ => hud.hideLoading
  else hud

/-- A read that is followed by a write. The heart of `cell` is as it was before the tap. -/
theorem answer_sent {t : Firestore × Device} {dictionary : Dictionary} {ids : List String}
    (htaps : taps.all (fun tap => tap.stage.isFinished) = true)
    (hcell : p.cell c = some { cell with isSelected := !cell.isSelected })
    (hread : ok.getDocument = true) (hdoc : db.lookup (userRef uid) = some dictionary)
    (hnew : newFavoriteArray (!cell.isSelected) cell.spot.id dictionary = some ids)
    (h : answer ok 5 (db, ⟨user, hud, p, taps ++
      [⟨c, uid, id, !cell.isSelected, .getDocument⟩]⟩) = some t) :
    t.2.idle = true ∧ t.2.currentUser = user ∧
      t.1 = (update db uid (some ids) ok.updateData).1 ∧
      t.2.pages = afterWrite p cell ids (update db uid (some ids) ok.updateData).2 ∧
      t.2.hud = hudAfterWrite hud cell (update db uid (some ids) ok.updateData).2 := by
  have hreply : db.getDocument (userRef uid) ok.getDocument = .snapshot (some dictionary) := by
    simp [Firestore.getDocument, hread, hdoc]
  have hassigned : (assignFavorites p (!cell.isSelected) cell.owner ids).cell c =
      some { cell with isSelected := !cell.isSelected } := by
    rw [assignFavorites_cell]
    exact hcell
  rw [answer_getDocument, hreply, answer_didGetDocument hcell] at h
  simp only [didGetDocument, hnew] at h
  rw [answer_updateData, answer_didUpdateData hassigned] at h
  cases hsel : cell.isSelected with
  | false =>
    simp only [hsel, didUpdateData, Bool.not_false, if_true, answer_finished] at h
    obtain rfl := Option.some.inj h
    refine ⟨idle_concat htaps, rfl, rfl, ?_, by simp [hudAfterWrite, hsel]⟩
    cases howner : cell.owner <;> simp [assignFavorites, afterWrite, howner, hsel]
  | true =>
    cases howner : cell.owner with
    | city page =>
      simp only [hsel, howner, didUpdateData, Bool.not_true, Bool.false_eq_true, if_false,
        answer_finished] at h
      obtain rfl := Option.some.inj h
      refine ⟨idle_concat htaps, rfl, rfl, ?_, by simp [hudAfterWrite, howner, hsel]⟩
      simp [assignFavorites, afterWrite, howner]
    | favorites page =>
      simp only [hsel, howner, didUpdateData, assignFavorites, Bool.not_true, Bool.false_eq_true,
        if_false, Option.getD_some] at h
      rw [@answer_reloadData _ _ _ _ _ _ _ _ _ _ _ { cell with isSelected := false } ?_,
        answer_finished] at h
      · obtain rfl := Option.some.inj h
        refine ⟨idle_concat htaps, rfl, rfl, ?_, by simp [reloadData, hudAfterWrite, howner, hsel]⟩
        simp [reloadData, afterWrite, howner, hsel]
      · split_ifs <;> simpa [hsel] using hcell

end

theorem tapAlone_isSome {ok : Answers} {s : Firestore × Device} {c : ℕ} {uid : String}
    {cell : SpotCollectionViewCell} (huser : s.2.currentUser = some uid)
    (hcell : s.2.pages.cell c = some cell) : (tapAlone ok s c).isSome = true := by
  have hshown : (s.2.pages.setSelected c !cell.isSelected).cell c =
      some { cell with isSelected := !cell.isSelected } := by
    simp [Pages.setSelected_cell, hcell]
  simp only [tapAlone, step, favoriteButtonDidTap, hcell, huser, Option.map_some,
    Option.bind_some]
  exact answer_isSome hshown

/-- The array that a tap on `cell` sends to the server, with its account. -/
def sends (ok : Answers) (s : Firestore × Device) (cell : SpotCollectionViewCell) :
    Option (String × List String) :=
  s.2.currentUser.bind fun uid =>
    if ok.getDocument then
      ((s.1.lookup (userRef uid)).bind (newFavoriteArray (!cell.isSelected) cell.spot.id)).map
        fun ids => (uid, ids)
    else none

theorem sends_eq_some {ok : Answers} {s : Firestore × Device} {cell : SpotCollectionViewCell}
    {uid : String} {ids : List String} : sends ok s cell = some (uid, ids) ↔
      s.2.currentUser = some uid ∧ ok.getDocument = true ∧
      ∃ dictionary, s.1.lookup (userRef uid) = some dictionary ∧
        newFavoriteArray (!cell.isSelected) cell.spot.id dictionary = some ids := by
  simp only [sends, Option.bind_eq_some_iff]
  constructor
  · rintro ⟨uid', huser, h⟩
    split_ifs at h with hok
    obtain ⟨ids', hids, heq⟩ := Option.map_eq_some_iff.mp h
    obtain ⟨rfl, rfl⟩ := Prod.mk.inj heq
    exact ⟨huser, hok, Option.bind_eq_some_iff.mp hids⟩
  · rintro ⟨huser, hok, dictionary, hdoc, hnew⟩
    exact ⟨uid, huser, by simp [hok, hdoc, hnew]⟩

/-- The array that a removal sends. -/
theorem sent_of_removal {ok : Answers} {s : Firestore × Device} {cell : SpotCollectionViewCell}
    {uid : String} {ids : List String} (hsel : cell.isSelected = true)
    (h : sends ok s cell = some (uid, ids)) : ids = (stored s.1 uid).erase cell.spot.id := by
  obtain ⟨-, -, dictionary, hdoc, hnew⟩ := sends_eq_some.mp h
  rw [hsel, Bool.not_true, newFavoriteArray_eq_some] at hnew
  obtain ⟨hadd, -⟩ | ⟨-, -, rfl⟩ := hnew
  · cases hadd
  · rw [stored_of_lookup hdoc]

/-- An array that is sent finds the document, and is stored when the write succeeds. -/
theorem sent_written {ok : Answers} {s : Firestore × Device} {cell : SpotCollectionViewCell}
    {uid : String} {ids : List String} (h : sends ok s cell = some (uid, ids)) :
    (update s.1 uid (some ids) true).2 = true ∧
      stored (update s.1 uid (some ids) true).1 uid = ids := by
  obtain ⟨-, -, dictionary, hdoc, -⟩ := sends_eq_some.mp h
  have hwritten : (update s.1 uid (some ids) true).2 = true := by rw [update_snd, hdoc]; rfl
  refine ⟨hwritten, ?_⟩
  rw [stored_update, if_pos ⟨rfl, hwritten⟩, Option.getD_some]

/-- The indicator once the button has been tapped. -/
def hudAfterTap (d : Device) (cell : SpotCollectionViewCell) : HUD :=
  if d.currentUser.isSome ∧ cell.isSelected then d.hud.showLoading else d.hud

/-- The outcome of a tap, by what it sends. -/
theorem tapAlone_cases {ok : Answers} {s t : Firestore × Device} {c : ℕ}
    (hidle : s.2.idle = true) (h : tapAlone ok s c = some t) :
    ∃ cell, s.2.pages.cell c = some cell ∧ t.2.idle = true ∧
      t.2.currentUser = s.2.currentUser ∧
      ((sends ok s cell = none ∧ (∀ uid, stored t.1 uid = stored s.1 uid) ∧
          t.2.pages = s.2.pages.setSelected c (!cell.isSelected) ∧
          t.2.hud = hudAfterTap s.2 cell) ∨
        ∃ uid ids, sends ok s cell = some (uid, ids) ∧
          t.1 = (update s.1 uid (some ids) ok.updateData).1 ∧
          t.2.pages = afterWrite (s.2.pages.setSelected c !cell.isSelected) cell ids
            (update s.1 uid (some ids) ok.updateData).2 ∧
          t.2.hud = hudAfterWrite (hudAfterTap s.2 cell) cell
            (update s.1 uid (some ids) ok.updateData).2) := by
  obtain ⟨m, hm, h⟩ := Option.bind_eq_some_iff.mp h
  cases step_cases hm with
  | @signedOut _ cell hcell huser =>
    have hnone :
        pending ok { s.2 with pages := s.2.pages.setSelected c !cell.isSelected } = none :=
      pending_of_idle hidle
    simp only [answer, hnone, Option.some.injEq] at h
    subst h
    exact ⟨cell, hcell, hidle, rfl, .inl ⟨by simp [sends, huser], fun _ => rfl, rfl,
      by simp [hudAfterTap, huser]⟩⟩
  | @signedIn _ cell uid hcell huser =>
    have hshown : (s.2.pages.setSelected c !cell.isSelected).cell c =
        some { cell with isSelected := !cell.isSelected } := by
      simp [Pages.setSelected_cell, hcell]
    have hhud : (if cell.isSelected = true then s.2.hud.showLoading else s.2.hud) =
        hudAfterTap s.2 cell := by
      simp [hudAfterTap, huser]
    rw [hhud] at h
    refine ⟨cell, hcell, ?_⟩
    cases hsends : sends ok s cell with
    | none =>
      have hnone : ok.getDocument = true → ∀ dictionary,
          s.1.lookup (userRef uid) = some dictionary →
          newFavoriteArray (!cell.isSelected) cell.spot.id dictionary = none := by
        intro hread dictionary hdoc
        rw [Option.eq_none_iff_forall_ne_some]
        intro ids hnew
        rw [sends_eq_some.mpr ⟨huser, hread, dictionary, hdoc, hnew⟩] at hsends
        cases hsends
      obtain ⟨hidle', huser', hstored, hpages⟩ := answer_unsent hidle hshown hnone h
      exact ⟨hidle', huser', .inl ⟨rfl, hstored, hpages⟩⟩
    | some sent =>
      obtain ⟨uid', ids⟩ := sent
      obtain ⟨huser', hread, dictionary, hdoc, hnew⟩ := sends_eq_some.mp hsends
      obtain rfl : uid = uid' := Option.some.inj (huser.symm.trans huser')
      obtain ⟨hidle', hsame, hdb, hpages⟩ :=
        answer_sent hidle hshown hread hdoc hnew h
      exact ⟨hidle', hsame, .inr ⟨uid, ids, rfl, hdb, hpages⟩⟩

/-! The hearts of a page over taps and reconfigured cells. -/

/-- A tap that is answered in full, or a cell that is scrolled away and configured
again. -/
inductive Gesture where
  | tap (cell : ℕ)
  | cellForItemAt (cell : ℕ) (owner : Owner) (item : ℕ)

def gesture (s : Firestore × Device) : Gesture → Option (Firestore × Device)
  | .tap c => tapAlone ⟨true, true⟩ s c
  | .cellForItemAt c owner item => step s (.cellForItemAt c owner item)

/-- A tap finds the document of the account, on it the spot at most once when it
is to be removed, and no other cell with the same spot. A cell is configured for
a spot that `favoriteSpotsIDs` of a city page lists if and only if it is stored,
or on a favourites page for one that is stored. -/
def TellsTheTruth (uid : String) (s : Firestore × Device) : Gesture → Prop
  | .tap c => ∀ cell, s.2.pages.cell c = some cell →
      (s.1.lookup (userRef uid)).isSome = true ∧
      (cell.isSelected = true → (stored s.1 uid).count cell.spot.id ≤ 1) ∧
      ∀ c' cell', c' ≠ c → s.2.pages.cell c' = some cell' → cell'.spot.id ≠ cell.spot.id
  | .cellForItemAt _ (.city page) item => ∀ spot, s.2.pages.spotAt (.city page) item = some spot →
      (spot.id ∈ (s.2.pages.spotsViewController page).favoriteSpotsIDs ↔
        spot.id ∈ stored s.1 uid)
  | .cellForItemAt _ (.favorites page) item => ∀ spot,
      s.2.pages.spotAt (.favorites page) item = some spot → spot.id ∈ stored s.1 uid

/-- Hearts after a tap that has flipped one of them. -/
theorem heartsAgree_flip {uid : String} {s t : Firestore × Device} {c : ℕ}
    {cell : SpotCollectionViewCell} (hcell : s.2.pages.cell c = some cell)
    (hcells : t.2.pages.cell = (s.2.pages.setSelected c !cell.isSelected).cell) :
    HeartsAgree t uid ↔ (cell.isSelected = false ↔ cell.spot.id ∈ stored t.1 uid) ∧
      ∀ c' cell', c' ≠ c → s.2.pages.cell c' = some cell' →
        (cell'.isSelected = true ↔ cell'.spot.id ∈ stored t.1 uid) := by
  simp only [HeartsAgree, hcells, Pages.setSelected_cell]
  constructor
  · intro h
    refine ⟨?_, fun c' cell' hne hcell' => h c' cell' (by rwa [if_neg hne])⟩
    have hc := h c { cell with isSelected := !cell.isSelected } (by simp [hcell])
    simpa using hc
  · rintro ⟨hc, hothers⟩ c' cell' hcell'
    split_ifs at hcell' with heq
    · rw [hcell, Option.map_some, Option.some.injEq] at hcell'
      subst hcell'
      simpa using hc
    · exact hothers c' cell' heq hcell'

/-- Hearts after a tap whose array is stored. -/
theorem heartsAgree_stored {uid : String} {s t : Firestore × Device} {c : ℕ}
    {cell : SpotCollectionViewCell} {dictionary : Dictionary} (hs : HeartsAgree s uid)
    (hcell : s.2.pages.cell c = some cell)
    (hcells : t.2.pages.cell = (s.2.pages.setSelected c !cell.isSelected).cell)
    (hfav : stored s.1 uid = favorites dictionary)
    (hnew : newFavoriteArray (!cell.isSelected) cell.spot.id dictionary = some (stored t.1 uid)) :
    HeartsAgree t uid ↔ (cell.isSelected = true → (stored s.1 uid).count cell.spot.id ≤ 1) ∧
      ∀ c' cell', c' ≠ c → s.2.pages.cell c' = some cell' → cell'.spot.id ≠ cell.spot.id := by
  have hagree := hs c cell hcell
  rw [heartsAgree_flip hcell hcells]
  constructor
  · rintro ⟨hc, hothers⟩
    refine ⟨fun hsel => ?_, fun c' cell' hne hcell' heq => ?_⟩
    · rw [hsel, Bool.not_true, newFavoriteArray_eq_some, ← hfav] at hnew
      obtain ⟨hadd, -⟩ | ⟨-, -, hids⟩ := hnew
      · cases hadd
      · have hgone : cell.spot.id ∉ (stored s.1 uid).erase cell.spot.id := by
          rw [← hids, ← hc, hsel]
          simp
        have hcount := List.count_eq_zero.mpr hgone
        rw [List.count_erase_self] at hcount
        omega
    · -- the other heart was right before, so it cannot be right now
      have hbefore := hs c' cell' hcell'
      have hafter := hothers c' cell' hne hcell'
      rw [heq, ← hagree] at hbefore
      rw [heq, ← hc, hbefore] at hafter
      cases hsel : cell.isSelected <;> simp [hsel] at hafter
  · rintro ⟨hone, hothers⟩
    have hmem := mem_newFavoriteArray hnew fun hremove => hfav ▸ hone (by simpa using hremove)
    refine ⟨by rw [hmem]; simp, fun c' cell' hne hcell' => ?_⟩
    rw [hs c' cell' hcell', hfav, ← List.count_pos_iff, ← List.count_pos_iff,
      count_newFavoriteArray hnew (hothers c' cell' hne hcell')]

theorem tap_heartsAgree_iff {uid : String} {s t : Firestore × Device} {c : ℕ}
    (hidle : s.2.idle = true) (huser : s.2.currentUser = some uid) (hs : HeartsAgree s uid)
    (h : tapAlone ⟨true, true⟩ s c = some t) :
    HeartsAgree t uid ↔ TellsTheTruth uid s (.tap c) := by
  obtain ⟨cell, hcell, -, -, h⟩ := tapAlone_cases hidle h
  have htruth : TellsTheTruth uid s (.tap c) ↔ (s.1.lookup (userRef uid)).isSome = true ∧
      (cell.isSelected = true → (stored s.1 uid).count cell.spot.id ≤ 1) ∧
      ∀ c' cell', c' ≠ c → s.2.pages.cell c' = some cell' → cell'.spot.id ≠ cell.spot.id := by
    simp [TellsTheTruth, hcell]
  rw [htruth]
  rcases h with ⟨hsends, hstored, hpages, -⟩ | ⟨uid', ids, hsends, hdb, hpages, -⟩
  · -- nothing is sent: the flipped heart is wrong, and the document must be missing
    have hagree := hs c cell hcell
    rw [heartsAgree_flip hcell (by rw [hpages]), hstored uid]
    have hmissing : s.1.lookup (userRef uid) = none := by
      cases hdoc : s.1.lookup (userRef uid) with
      | none => rfl
      | some dictionary =>
        have hnone : newFavoriteArray (!cell.isSelected) cell.spot.id dictionary = none := by
          simpa [sends, huser, hdoc] using hsends
        rw [newFavoriteArray_eq_none] at hnone
        have hfav : stored s.1 uid = favorites dictionary := stored_of_lookup hdoc
        rw [hfav, hnone] at hagree
        cases hsel : cell.isSelected <;> simp [hsel] at hagree
    rw [hmissing, ← hagree]
    cases cell.isSelected <;> simp
  · obtain ⟨huser', -, dictionary, hdoc, hnew⟩ := sends_eq_some.mp hsends
    obtain rfl : uid = uid' := Option.some.inj (huser.symm.trans huser')
    have hfav : stored s.1 uid = favorites dictionary := stored_of_lookup hdoc
    have hids : stored t.1 uid = ids := by
      rw [hdb]
      exact (sent_written hsends).2
    have hcells : t.2.pages.cell = (s.2.pages.setSelected c !cell.isSelected).cell := by
      rw [hpages, afterWrite_cell]
    rw [heartsAgree_stored hs hcell hcells hfav (hids ▸ hnew), hdoc]
    simp

theorem cellForItemAt_tellsTheTruth {uid : String} {s : Firestore × Device} {c item : ℕ}
    {owner : Owner} {spot : Spot} (hspot : s.2.pages.spotAt owner item = some spot) :
    TellsTheTruth uid s (.cellForItemAt c owner item) ↔
      (s.2.pages.heart owner spot = true ↔ spot.id ∈ stored s.1 uid) := by
  cases owner <;> simp [TellsTheTruth, hspot, Pages.heart]

theorem gesture_quiet {uid : String} {s t : Firestore × Device} {g : Gesture}
    (hs : s.2.idle = true ∧ s.2.currentUser = some uid) (h : gesture s g = some t) :
    t.2.idle = true ∧ t.2.currentUser = some uid := by
  cases g with
  | tap c =>
    obtain ⟨cell, -, hidle, huser, -⟩ := tapAlone_cases hs.1 h
    exact ⟨hidle, huser.trans hs.2⟩
  | cellForItemAt c owner item =>
    have hstep : step s (.cellForItemAt c owner item) = some t := h
    cases step_cases hstep with
    | cellForItemAt hspot howner => exact hs

theorem gesture_heartsAgree_iff {uid : String} {s t : Firestore × Device} {g : Gesture}
    (hquiet : s.2.idle = true ∧ s.2.currentUser = some uid) (hs : HeartsAgree s uid)
    (h : gesture s g = some t) : HeartsAgree t uid ↔ TellsTheTruth uid s g := by
  cases g with
  | tap c => exact tap_heartsAgree_iff hquiet.1 hquiet.2 hs h
  | cellForItemAt c owner item =>
    have hstep : step s (.cellForItemAt c owner item) = some t := h
    cases step_cases hstep with
    | @cellForItemAt _ _ _ spot hspot howner =>
      rw [cellForItemAt_tellsTheTruth hspot]
      simp only [HeartsAgree]
      constructor
      · intro ht
        exact ht c _ (Function.update_self ..)
      · intro ht c' cell' hcell'
        by_cases hc : c' = c
        · subst hc
          rw [Function.update_self, Option.some.injEq] at hcell'
          subst hcell'
          exact ht
        · rw [Function.update_of_ne hc] at hcell'
          exact hs c' cell' hcell'

/-- Over any taps and reconfigured cells the hearts stay right exactly when every
event is one that keeps them right. -/
theorem hearts_tell_the_truth_iff {uid : String} {s t : Firestore × Device} {gs : List Gesture}
    (hidle : s.2.idle = true) (huser : s.2.currentUser = some uid) (hs : HeartsAgree s uid)
    (hr : run gesture s gs = some t) :
    Always gesture (fun m => HeartsAgree m uid) s gs ↔ Along gesture (TellsTheTruth uid) s gs :=
  always_iff_along (I := fun m => m.2.idle = true ∧ m.2.currentUser = some uid)
    (fun _ _ _ hm h => gesture_quiet hm h)
    (fun _ _ _ hquiet hm h => gesture_heartsAgree_iff hquiet hm h) ⟨hidle, huser⟩ hs hr

/-- A spot is made a favourite and taken back before its cell is drawn again. -/
def sampleGestures : List Gesture :=
  [.tap 0, .cellForItemAt 1 (.city 0) 1, .tap 0, .cellForItemAt 0 (.city 0) 0]

theorem hearts_tell_the_truth_iff_sample :
    ∃ t, run gesture (sampleState (.city 0) []) sampleGestures = some t ∧
      Always gesture (fun m => HeartsAgree m "u") (sampleState (.city 0) []) sampleGestures ∧
      Along gesture (TellsTheTruth "u") (sampleState (.city 0) []) sampleGestures := by
  have h := @hearts_tell_the_truth_iff "u" (sampleState (.city 0) []) _ sampleGestures rfl rfl
    (heartsAgree_sampleState 0 []) rfl
  have hg : Along gesture (TellsTheTruth "u") (sampleState (.city 0) []) sampleGestures := by
    refine along_step ?_ rfl <| along_step ?_ rfl <| along_step ?_ rfl <| along_step ?_ rfl trivial
    · rintro cell ⟨⟩
      refine ⟨rfl, nofun, ?_⟩
      rintro (_ | _ | c) cell hne ⟨⟩
      · exact absurd rfl hne
      · decide
    · rintro spot ⟨⟩
      decide
    · rintro cell ⟨⟩
      refine ⟨rfl, fun _ => by decide, ?_⟩
      rintro (_ | _ | c) cell hne ⟨⟩
      · exact absurd rfl hne
      · decide
    · rintro spot ⟨⟩
      decide
  exact ⟨_, rfl, h.mpr hg, hg⟩

/-- A spot is made a favourite, its cell is scrolled away and back: the heart is off. -/
theorem heart_forgets_tap :
    ∃ gs, HeartsAgree (sampleState (.city 0) []) "u" ∧
      (run gesture (sampleState (.city 0) []) gs).isSome = true ∧
      ¬ Always gesture (fun m => HeartsAgree m "u") (sampleState (.city 0) []) gs := by
  refine ⟨[.tap 0, .cellForItemAt 0 (.city 0) 0], heartsAgree_sampleState 0 [], rfl, fun h => ?_⟩
  have hheart := ((h.2 _ rfl).2 _ rfl) 0 _ rfl
  exact absurd (hheart.mpr (by decide)) (by decide)

/-! A tap that fails. -/

/-- Nobody is signed in, or the read fails, or there is no document, or the write fails. -/
def Fails (ok : Answers) (s : Firestore × Device) : Prop :=
  ∀ uid, s.2.currentUser = some uid →
    ok.getDocument = false ∨ s.1.lookup (userRef uid) = none ∨ ok.updateData = false

/-- The tap removes a spot from the favourites page and gets as far as its write, so
that the page is reloaded at the end. -/
def Reloads (ok : Answers) (s : Firestore × Device) (cell : SpotCollectionViewCell) : Prop :=
  (∃ page, cell.owner = .favorites page) ∧ cell.isSelected = true ∧ (sends ok s cell).isSome = true

/-- The heart of the cell, the lists of the controllers and the stored array are the same. -/
structure Unchanged (uid : String) (c : ℕ) (s t : Firestore × Device) : Prop where
  heart : (t.2.pages.cell c).map SpotCollectionViewCell.isSelected =
    (s.2.pages.cell c).map SpotCollectionViewCell.isSelected
  city : ∀ page, (t.2.pages.spotsViewController page).favoriteSpotsIDs =
      (s.2.pages.spotsViewController page).favoriteSpotsIDs ∧
    (t.2.pages.spotsViewController page).spotsCollectionViewController.favoriteSpotsIDs =
      (s.2.pages.spotsViewController page).spotsCollectionViewController.favoriteSpotsIDs
  favorites : ∀ page, (t.2.pages.favoriteSpotsViewController page).favoriteSpotsIDs =
      (s.2.pages.favoriteSpotsViewController page).favoriteSpotsIDs ∧
    (t.2.pages.favoriteSpotsViewController page).favoriteSpots =
      (s.2.pages.favoriteSpotsViewController page).favoriteSpots
  stored : stored t.1 uid = stored s.1 uid

/-- Redrawing cells of a favourites page switches their hearts on and does nothing else. -/
theorem run_cellForItemAt {s t : Firestore × Device} {fs : List Event} {page : ℕ}
    (hr : run step s fs = some t)
    (hfs : ∀ e ∈ fs, ∃ c item, e = .cellForItemAt c (.favorites page) item) (c : ℕ) :
    t.1 = s.1 ∧ t.2.pages.spotsViewController = s.2.pages.spotsViewController ∧
      t.2.pages.favoriteSpotsViewController = s.2.pages.favoriteSpotsViewController ∧
      ((∃ item, .cellForItemAt c (.favorites page) item ∈ fs) →
        (t.2.pages.cell c).map SpotCollectionViewCell.isSelected = some true) ∧
      ((¬ ∃ item, .cellForItemAt c (.favorites page) item ∈ fs) →
        t.2.pages.cell c = s.2.pages.cell c) := by
  induction fs generalizing s with
  | nil =>
    obtain rfl : s = t := Option.some.inj hr
    exact ⟨rfl, rfl, rfl, by simp, fun _ => rfl⟩
  | cons e fs ih =>
    obtain ⟨m, hm, hrest⟩ := run_cons.mp hr
    obtain ⟨c', item, rfl⟩ := hfs e (by simp)
    obtain ⟨hdb, hcity, hfav, hin, hout⟩ := ih hrest fun e he => hfs e (by simp [he])
    cases step_cases hm with
    | @cellForItemAt _ _ _ spot hspot howner =>
      refine ⟨hdb, hcity, hfav, ?_, ?_⟩
      · rintro ⟨item', hmem⟩
        by_cases hlater : ∃ item, .cellForItemAt c (.favorites page) item ∈ fs
        · exact hin hlater
        · rcases List.mem_cons.mp hmem with heq | hmem
          · cases heq
            rw [hout hlater]
            simp [Pages.heart]
          · exact absurd ⟨item', hmem⟩ hlater
      · intro hnone
        have hne : c ≠ c' := by
          rintro rfl
          exact hnone ⟨item, by simp⟩
        have hrest' : ¬ ∃ item, .cellForItemAt c (.favorites page) item ∈ fs := by
          rintro ⟨item', hmem⟩
          exact hnone ⟨item', by simp [hmem]⟩
        rw [hout hrest']
        exact Function.update_of_ne hne ..

/-- A tap leaves the heart of its cell flipped until the cell is configured again. -/
theorem tapAlone_cell {ok : Answers} {s t : Firestore × Device} {c : ℕ}
    {cell : SpotCollectionViewCell} (hidle : s.2.idle = true) (hcell : s.2.pages.cell c = some cell)
    (ht : tapAlone ok s c = some t) :
    t.2.pages.cell c = some { cell with isSelected := !cell.isSelected } := by
  obtain ⟨cell', hcell', -, -, h⟩ := tapAlone_cases hidle ht
  obtain rfl : cell = cell' := Option.some.inj (hcell.symm.trans hcell')
  have hset : (s.2.pages.setSelected c !cell.isSelected).cell c =
      some { cell with isSelected := !cell.isSelected } := by
    simp [Pages.setSelected_cell, hcell]
  rcases h with ⟨-, -, hpages, -⟩ | ⟨_, _, -, -, hpages, -⟩
  · rw [hpages, hset]
  · rw [hpages, afterWrite_cell, hset]

/-- A removal on the favourites page that fails in its write has put the array
without the id on the list of the page. -/
theorem failed_removal {ok : Answers} {s t : Firestore × Device} {c page : ℕ}
    {cell : SpotCollectionViewCell} {uid : String} (hidle : s.2.idle = true)
    (hcell : s.2.pages.cell c = some cell)
    (huser : ∀ uid', s.2.currentUser = some uid' → uid' = uid) (hfail : Fails ok s)
    (ht : tapAlone ok s c = some t) (hre : Reloads ok s cell)
    (howner : cell.owner = .favorites page) :
    stored t.1 uid = stored s.1 uid ∧ t.2.pages = ((s.2.pages.setSelected c false).setFavorites
      page ((stored s.1 uid).erase cell.spot.id)).reloadFavorites page := by
  obtain ⟨-, hsel, hsome⟩ := hre
  obtain ⟨cell', hcell', -, -, h⟩ := tapAlone_cases hidle ht
  obtain rfl : cell = cell' := Option.some.inj (hcell.symm.trans hcell')
  rcases h with ⟨hnone, -⟩ | ⟨uid', ids, hsends, hdb, hpages, -⟩
  · simp [hnone] at hsome
  obtain ⟨huser', hread, dictionary, hdoc, -⟩ := sends_eq_some.mp hsends
  obtain rfl := huser uid' huser'
  have hwrite : ok.updateData = false := by simpa [hread, hdoc] using hfail uid' huser'
  have hids : ids = (stored s.1 uid').erase cell.spot.id := sent_of_removal hsel hsends
  have hunwritten : (update s.1 uid' (some ids) ok.updateData).2 = false := by
    rw [update_snd, hwrite, Bool.false_and]
  refine ⟨?_, ?_⟩
  · rw [hdb, stored_update, if_neg (by simp [hunwritten])]
  · rw [hpages, hunwritten, ← hids]
    simp [afterWrite, howner, hsel]

/-- A failed tap changes nothing exactly when it is a removal on the favourites page
that fails in its write, the reload configures the tapped cell again, and the page
had the array without the id on its list already. -/
theorem failed_tap_unchanged_iff {ok : Answers} {s t t' : Firestore × Device} {c : ℕ}
    {cell : SpotCollectionViewCell} {uid : String} {fs : List Event} (hidle : s.2.idle = true)
    (hcell : s.2.pages.cell c = some cell)
    (huser : ∀ uid', s.2.currentUser = some uid' → uid' = uid)
    (hfail : Fails ok s) (ht : tapAlone ok s c = some t) (hr : run step t fs = some t')
    (hfs : ∀ e ∈ fs, ∃ c' item, e = .cellForItemAt c' cell.owner item)
    (hreload : fs ≠ [] → Reloads ok s cell) :
    Unchanged uid c s t' ↔ ∃ page item, cell.owner = .favorites page ∧
      .cellForItemAt c (.favorites page) item ∈ fs ∧
      (s.2.pages.favoriteSpotsViewController page).favoriteSpotsIDs =
        (stored s.1 uid).erase cell.spot.id := by
  have hflipped := tapAlone_cell hidle hcell ht
  by_cases hre : Reloads ok s cell
  · obtain ⟨page, howner⟩ := hre.1
    have hsel := hre.2.1
    obtain ⟨hstored, hpages⟩ := failed_removal hidle hcell huser hfail ht hre howner
    obtain ⟨hdb, hcity, hfavorites, hin, hout⟩ := run_cellForItemAt hr (howner ▸ hfs) c
    have hlist : (t'.2.pages.favoriteSpotsViewController page).favoriteSpotsIDs =
        (stored s.1 uid).erase cell.spot.id := by
      simp [hfavorites, hpages, Pages.reloadFavorites, Pages.setFavorites,
        Pages.updateFavoritesPage]
    constructor
    · intro h
      have hredrawn : ∃ item, .cellForItemAt c (.favorites page) item ∈ fs := by
        by_contra hnone
        have hheart := h.heart
        rw [hout hnone, hflipped, hcell] at hheart
        simp [hsel] at hheart
      obtain ⟨item, hmem⟩ := hredrawn
      exact ⟨page, item, howner, hmem, by rw [← (h.favorites page).1, hlist]⟩
    · rintro ⟨page', item, howner', hmem, hsame⟩
      obtain rfl : page = page' := by simpa [howner] using howner'
      refine ⟨?_, fun page' => ?_, fun page' => ?_, by rw [hdb, hstored]⟩
      · rw [hin ⟨item, hmem⟩, hcell, Option.map_some, hsel]
      · rw [hcity, hpages]
        exact ⟨rfl, rfl⟩
      · by_cases hp : page' = page
        · subst hp
          refine ⟨by rw [hlist, hsame], ?_⟩
          simp [hfavorites, hpages, Pages.reloadFavorites, Pages.setFavorites,
            Pages.updateFavoritesPage, Pages.setSelected]
        · simp [hfavorites, hpages, Pages.reloadFavorites, Pages.setFavorites,
            Pages.updateFavoritesPage, Pages.setSelected, Function.update_of_ne hp]
  · -- without a reload the heart stays as the tap has left it
    obtain rfl : fs = [] := by
      by_contra hne
      exact hre (hreload hne)
    obtain rfl : t = t' := Option.some.inj hr
    constructor
    · intro h
      have hheart := h.heart
      rw [hflipped, hcell] at hheart
      cases hsel : cell.isSelected <;> simp [hsel] at hheart
    · rintro ⟨page, item, -, hmem, -⟩
      cases hmem

/-- The write of a removal fails and the page draws the cell again. The first time this
changes the list of the page, the second time nothing. -/
theorem failed_tap_unchanged_iff_sample :
    ∃ m s m' t, tapAlone ⟨true, false⟩ (sampleState (.favorites 0) ["a"]) 0 = some m ∧
      run step m [.cellForItemAt 0 (.favorites 0) 0] = some s ∧
      tapAlone ⟨true, false⟩ s 0 = some m' ∧
      run step m' [.cellForItemAt 0 (.favorites 0) 0] = some t ∧
      ¬ Unchanged "u" 0 (sampleState (.favorites 0) ["a"]) s ∧ Unchanged "u" 0 s t := by
  refine ⟨_, _, _, _, rfl, rfl, rfl, rfl, fun h => ?_, ?_⟩
  · exact absurd (h.favorites 0).1 (by decide)
  · refine (@failed_tap_unchanged_iff ⟨true, false⟩ _ _ _ 0
      ⟨.favorites 0, sampleSpot "a" none, true⟩ "u" [.cellForItemAt 0 (.favorites 0) 0] rfl rfl
      (fun _ h => (Option.some.inj h).symm) (fun _ _ => .inr (.inr rfl)) rfl rfl
      (fun e he => ⟨0, 0, List.mem_singleton.mp he⟩) (fun _ => ⟨⟨0, rfl⟩, rfl, rfl⟩)).mpr ?_
    exact ⟨0, 0, rfl, List.mem_singleton_self _, rfl⟩

/-- The read fails, and the heart stays on. -/
theorem failed_tap_keeps_heart :
    ∃ ok t, HeartsAgree (sampleState (.city 0) []) "u" ∧ Fails ok (sampleState (.city 0) []) ∧
      tapAlone ok (sampleState (.city 0) []) 0 = some t ∧
      ¬ Unchanged "u" 0 (sampleState (.city 0) []) t := by
  refine ⟨⟨false, true⟩, _, heartsAgree_sampleState 0 [], fun _ _ => .inl rfl, rfl, fun h => ?_⟩
  exact absurd h.heart (by decide)

end TaiwanSpots.FavoriteButton
