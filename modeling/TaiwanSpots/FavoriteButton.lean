import TaiwanSpots.Runs
import TaiwanSpots.Pages

/-!
# Taps on the heart, request by request

`favoriteButtonDidTap` flips the heart, reads the account's document, computes a
new array in the callback of that read and writes it back. The state of a device
lists its taps in the order in which they were made, each at one of its stages.
An event is a tap, a cell that is configured again, an answer of the server or a
callback. Every callback works on what the cell shows when it runs.
-/
namespace TaiwanSpots.FavoriteButton
open DocumentStore

/-- What a tap waits for: the server's answer to the read, the callback of the
read, the server's answer to the write, the callback of the write, or the block
on the main queue. `updateData` records the document that was read; no callback
looks at it again. -/
inductive Stage where
  | getDocument
  | didGetDocument (reply : Reply)
  | updateData (dictionary : Dictionary) (newFavoriteArray : Option (List String))
  | didUpdateData (ok : Bool) (newFavoriteArray : Option (List String))
  | reloadData
  | finished

/-- One tap of a signed-in account. `spotID` records what the cell was showing;
no callback reads it. -/
structure Tap where
  cell : ℕ
  uid : String
  spotID : String
  adding : Bool
  stage : Stage

def Stage.isFinished : Stage → Bool
  | .finished => true
  | _ => false

structure Device where
  currentUser : Option String
  hud : HUD
  pages : Pages
  taps : List Tap

/-- No tap is in flight. -/
def Device.idle (d : Device) : Bool := d.taps.all fun tap => tap.stage.isFinished

/-- The array that switching the heart on writes. Nothing is to be written for an
id that is listed already. -/
def addFavorite (id : String) (dictionary : Dictionary) : Option (List String) :=
  match dictionary.strings "favoriteSpots" with
  | some favoriteArray =>
    if id ∈ favoriteArray then none else some (favoriteArray ++ [id])
  | none => some [id]

/-- The array that switching the heart off writes. -/
def removeFavorite (id : String) (dictionary : Dictionary) : Option (List String) :=
  match dictionary.strings "favoriteSpots" with
  | some favoriteArray => if id ∈ favoriteArray then some (favoriteArray.erase id) else none
  | none => none

def newFavoriteArray (adding : Bool) (id : String) (dictionary : Dictionary) :
    Option (List String) :=
  if adding then addFavorite id dictionary else removeFavorite id dictionary

/-- The fields passed to `updateData`. -/
def favoriteData : Option (List String) → Dictionary
  | some ids => [("favoriteSpots", .array (ids.map .string))]
  | none => []

/-- The list that a computed array is assigned to. Switching the heart on has one
on the city page only. -/
def assignFavorites (p : Pages) (adding : Bool) (owner : Owner) (ids : List String) : Pages :=
  match owner with
  | .city page => p.setCollectionFavorites page ids
  | .favorites page => if adding then p else p.setFavorites page ids

def favoriteButtonDidTap (d : Device) (c : ℕ) : Option Device :=
  match d.pages.cell c with
  | none => none
  | some cell =>
    let pages := d.pages.setSelected c !cell.isSelected
    match d.currentUser with
    | none => some { d with pages }
    | some uid => some
      { d with
        pages
        hud := if cell.isSelected then d.hud.showLoading else d.hud
        taps := d.taps ++ [⟨c, uid, cell.spot.id, !cell.isSelected, .getDocument⟩] }

/-- The callback of `getDocument`, for a tap on `cell`. -/
def didGetDocument (p : Pages) (adding : Bool) (cell : SpotCollectionViewCell) :
    Reply → Pages × Stage
  | .error | .snapshot none => (p, .finished)
  | .snapshot (some dictionary) =>
    match newFavoriteArray adding cell.spot.id dictionary with
    | some ids => (assignFavorites p adding cell.owner ids, .updateData dictionary (some ids))
    -- an addition that has nothing to add still issues a request, without fields
    | none => (p, if adding then .updateData dictionary none else .finished)

/-- The callback of `updateData`, for a tap on `cell`. -/
def didUpdateData (p : Pages) (hud : HUD) (adding : Bool) (cell : SpotCollectionViewCell)
    (ok : Bool) (ids : Option (List String)) : Pages × HUD × Stage :=
  if adding then (p, hud, .finished)
  else
    match cell.owner with
    | .city _ => (p, if ok then hud.hideLoading else hud, .finished)
    | .favorites page =>
      let ids := ids.getD (p.favoriteSpotsViewController page).favoriteSpotsIDs
      (if ok then (p.setFavorites page ids).removeFavoriteSpot page cell.spot else p, hud,
        .reloadData)

/-- The block that the favourites page queues behind the callback. -/
def reloadData (p : Pages) (hud : HUD) (cell : SpotCollectionViewCell) : Pages × HUD :=
  match cell.owner with
  | .city _ => (p, hud)
  | .favorites page => (p.reloadFavorites page, hud.hideLoading)

/-- A write that the server carries out, and whether it succeeds. -/
def update (db : Firestore) (uid : String) (ids : Option (List String)) (ok : Bool) :
    Firestore × Bool :=
  match if ok then db.updateData (userRef uid) (favoriteData ids) else none with
  | some db' => (db', true)
  | none => (db, false)

inductive Event where
  | cellForItemAt (cell : ℕ) (owner : Owner) (item : ℕ)
  | favoriteButtonDidTap (cell : ℕ)
  | getDocument (tap : ℕ) (ok : Bool)
  | didGetDocument (tap : ℕ)
  | updateData (tap : ℕ) (ok : Bool)
  | didUpdateData (tap : ℕ)
  | reloadData (tap : ℕ)
  deriving DecidableEq, Repr

/-- Take the tap to its next stage. -/
def Device.setStage (d : Device) (i : ℕ) (stage : Stage) : Device :=
  { d with taps := d.taps.modify i fun tap => { tap with stage } }

/-- One event of the tap at index `i`. -/
def advance (s : Firestore × Device) (tap : Tap) (i : ℕ) : Event → Option (Firestore × Device)
  | .getDocument _ ok =>
    match tap.stage with
    | .getDocument =>
      some (s.1, s.2.setStage i (.didGetDocument (s.1.getDocument (userRef tap.uid) ok)))
    | _ => none
  | .didGetDocument _ =>
    match tap.stage, s.2.pages.cell tap.cell with
    | .didGetDocument reply, some cell =>
      let r := didGetDocument s.2.pages tap.adding cell reply
      some (s.1, { s.2 with pages := r.1 }.setStage i r.2)
    | _, _ => none
  | .updateData _ ok =>
    match tap.stage with
    | .updateData _ ids =>
      let r := update s.1 tap.uid ids ok
      some (r.1, s.2.setStage i (.didUpdateData r.2 ids))
    | _ => none
  | .didUpdateData _ =>
    match tap.stage, s.2.pages.cell tap.cell with
    | .didUpdateData ok ids, some cell =>
      let r := didUpdateData s.2.pages s.2.hud tap.adding cell ok ids
      some (s.1, { s.2 with pages := r.1, hud := r.2.1 }.setStage i r.2.2)
    | _, _ => none
  | .reloadData _ =>
    match tap.stage, s.2.pages.cell tap.cell with
    | .reloadData, some cell =>
      let r := reloadData s.2.pages s.2.hud cell
      some (s.1, { s.2 with pages := r.1, hud := r.2 }.setStage i .finished)
    | _, _ => none
  | _ => none

def step (s : Firestore × Device) (e : Event) : Option (Firestore × Device) :=
  match e with
  | .cellForItemAt c owner item =>
    (s.2.pages.cellForItemAt c owner item).map fun pages => (s.1, { s.2 with pages })
  | .favoriteButtonDidTap c => (favoriteButtonDidTap s.2 c).map fun d => (s.1, d)
  | .getDocument i _ | .didGetDocument i | .updateData i _ | .didUpdateData i | .reloadData i =>
    s.2.taps[i]?.bind fun tap => advance s tap i e

/-! The stored array, and what one tap does to it. -/

/-- The favourites that a document lists. -/
def favorites (dictionary : Dictionary) : List String :=
  (dictionary.strings "favoriteSpots").getD []

/-- The stored favourites of an account. -/
def stored (db : Firestore) (uid : String) : List String :=
  ((db.lookup (userRef uid)).map favorites).getD []

theorem favorites_of_strings {d : Dictionary} {ids : List String}
    (h : d.strings "favoriteSpots" = some ids) : favorites d = ids := by
  rw [favorites, h, Option.getD_some]

theorem stored_of_lookup {db : Firestore} {uid : String} {d : Dictionary}
    (h : db.lookup (userRef uid) = some d) : stored db uid = favorites d := by
  rw [stored, h, Option.map_some, Option.getD_some]

theorem stored_of_missing {db : Firestore} {uid : String} (h : db.lookup (userRef uid) = none) :
    stored db uid = [] := by
  rw [stored, h, Option.map_none, Option.getD_none]

/-- A read that succeeds and yields no array finds none stored. -/
theorem stored_of_unlisted {db : Firestore} {uid : String}
    (h : ∀ d ids, db.getDocument (userRef uid) true = .snapshot (some d) →
      d.strings "favoriteSpots" ≠ some ids) : stored db uid = [] := by
  cases hdoc : db.lookup (userRef uid) with
  | none => exact stored_of_missing hdoc
  | some d =>
    have hread : db.getDocument (userRef uid) true = .snapshot (some d) := by
      simp [Firestore.getDocument, hdoc]
    have hnone : d.strings "favoriteSpots" = none :=
      Option.eq_none_iff_forall_ne_some.mpr fun ids => h d ids hread
    rw [stored_of_lookup hdoc, favorites, hnone, Option.getD_none]

@[simp] theorem favorites_merge_some (d : Dictionary) (ids : List String) :
    favorites (d.merge (favoriteData (some ids))) = ids := by
  have hl : (d.merge (favoriteData (some ids))).lookup "favoriteSpots" =
      some (.array (ids.map .string)) := by
    rw [Dictionary.lookup_merge]
    rfl
  simp [favorites, Dictionary.strings, hl]

@[simp] theorem favorites_merge_none (d : Dictionary) :
    favorites (d.merge (favoriteData none)) = favorites d := by
  have hl : (d.merge (favoriteData none)).lookup "favoriteSpots" = d.lookup "favoriteSpots" := by
    rw [Dictionary.lookup_merge]
    rfl
  simp [favorites, Dictionary.strings, hl]

/-- An absent array counts as an empty one. -/
theorem newFavoriteArray_eq_some {adding : Bool} {id : String} {d : Dictionary}
    {ids : List String} : newFavoriteArray adding id d = some ids ↔
      (adding = true ∧ id ∉ favorites d ∧ ids = favorites d ++ [id]) ∨
      (adding = false ∧ id ∈ favorites d ∧ ids = (favorites d).erase id) := by
  simp only [newFavoriteArray, addFavorite, removeFavorite, favorites]
  cases adding <;> cases hd : d.strings "favoriteSpots" <;> simp [eq_comm]

/-- Nothing is computed only when the document is already as the tap wants it. -/
theorem newFavoriteArray_eq_none {adding : Bool} {id : String} {d : Dictionary} :
    newFavoriteArray adding id d = none ↔ (id ∈ favorites d ↔ adding = true) := by
  rw [Option.eq_none_iff_forall_ne_some]
  simp only [ne_eq, newFavoriteArray_eq_some]
  cases adding <;> by_cases hid : id ∈ favorites d <;> simp [hid]

/-- A computed array differs from the one that was read in the given id only. -/
theorem count_newFavoriteArray {adding : Bool} {id : String} {d : Dictionary} {ids : List String}
    (h : newFavoriteArray adding id d = some ids) {other : String} (hne : other ≠ id) :
    ids.count other = (favorites d).count other := by
  rcases newFavoriteArray_eq_some.mp h with ⟨-, -, rfl⟩ | ⟨-, -, rfl⟩
  · simp [hne.symm]
  · exact List.count_erase_of_ne hne

theorem mem_newFavoriteArray {adding : Bool} {id : String} {d : Dictionary} {ids : List String}
    (h : newFavoriteArray adding id d = some ids)
    (hone : adding = false → (favorites d).count id ≤ 1) : id ∈ ids ↔ adding = true := by
  rcases newFavoriteArray_eq_some.mp h with ⟨ha, -, rfl⟩ | ⟨ha, -, rfl⟩
  · simp [ha]
  · have hcount := hone ha
    rw [← List.count_pos_iff, List.count_erase_self, ha]
    simp only [Bool.false_eq_true, iff_false]
    omega

theorem update_snd (db : Firestore) (uid : String) (ids : Option (List String)) (ok : Bool) :
    (update db uid ids ok).2 = (ok && (db.lookup (userRef uid)).isSome) := by
  cases ok <;> cases hd : db.lookup (userRef uid) <;> simp [update, Firestore.updateData, hd]

theorem isSome_lookup_update (db : Firestore) (uid : String) (ids : Option (List String))
    (ok : Bool) (ref : DocumentReference) :
    ((update db uid ids ok).1.lookup ref).isSome = (db.lookup ref).isSome := by
  by_cases hok : ok = true
  · cases hd : db.lookup (userRef uid) with
    | none => simp [update, Firestore.updateData, hok, hd]
    | some d =>
      by_cases hr : ref = userRef uid
      · subst hr
        simp [update, Firestore.updateData, hok, hd]
      · simp [update, Firestore.updateData, hok, hd, AList.lookup_insert_ne hr]
  · simp [update, hok]

/-- A write that succeeds stores its array, every other account keeps its own. -/
theorem stored_update (db : Firestore) (uid : String) (ids : Option (List String)) (ok : Bool)
    (uid' : String) : stored (update db uid ids ok).1 uid' =
      if uid' = uid ∧ (update db uid ids ok).2 = true then ids.getD (stored db uid)
      else stored db uid' := by
  cases ok <;> cases hd : db.lookup (userRef uid) <;>
    simp only [update, Firestore.updateData, hd, Option.map, if_true, Bool.false_eq_true,
      and_false, and_true, if_false]
  split_ifs with hu
  · subst hu
    cases ids <;> simp [stored, hd]
  · have hne : userRef uid' ≠ userRef uid := by simpa [userRef] using hu
    simp [stored, AList.lookup_insert_ne hne]

@[simp] theorem assignFavorites_cell (p : Pages) (adding : Bool) (owner : Owner)
    (ids : List String) : (assignFavorites p adding owner ids).cell = p.cell := by
  cases owner <;> simp only [assignFavorites]
  · rfl
  · split_ifs <;> rfl

@[simp] theorem didGetDocument_cell (p : Pages) (adding : Bool) (cell : SpotCollectionViewCell)
    (reply : Reply) : (didGetDocument p adding cell reply).1.cell = p.cell := by
  rcases reply with _ | _ | dictionary
  · rfl
  · rfl
  · simp only [didGetDocument]
    split <;> simp

@[simp] theorem favoriteIDs_assignFavorites (p : Pages) (adding : Bool) (owner : Owner)
    (ids : List String) (page : ℕ) :
    (assignFavorites p adding owner ids).favoriteIDs page = p.favoriteIDs page := by
  cases owner <;> simp only [assignFavorites]
  · simp
  · split_ifs <;> simp

@[simp] theorem favoriteIDs_didGetDocument (p : Pages) (adding : Bool)
    (cell : SpotCollectionViewCell) (reply : Reply) (page : ℕ) :
    (didGetDocument p adding cell reply).1.favoriteIDs page = p.favoriteIDs page := by
  rcases reply with _ | _ | dictionary
  · rfl
  · rfl
  · simp only [didGetDocument]
    split <;> simp

/-- The callback of a removal that succeeded takes the spot of its cell from a favourites
page, and no other. -/
theorem count_favoriteIDs_didUpdateData (p : Pages) (hud : HUD) (adding : Bool)
    (cell : SpotCollectionViewCell) (ok : Bool) (ids : Option (List String)) (page : ℕ)
    {id : String}
    (h : adding = false → ok = true → ∀ page, cell.owner = .favorites page → id ≠ cell.spot.id) :
    ((didUpdateData p hud adding cell ok ids).1.favoriteIDs page).count id =
      (p.favoriteIDs page).count id := by
  cases adding with
  | true => rfl
  | false =>
    cases hc : cell.owner with
    | city page' => simp [didUpdateData, hc]
    | favorites page' =>
      cases ok with
      | false => simp [didUpdateData, hc]
      | true =>
        simp only [didUpdateData, hc, Bool.false_eq_true, if_false, if_true,
          Pages.favoriteIDs_removeFavoriteSpot]
        split_ifs with hp
        · subst hp
          simp [List.count_erase_of_ne (h rfl rfl page hc)]
        · simp

@[simp] theorem favoriteIDs_reloadData (p : Pages) (hud : HUD) (cell : SpotCollectionViewCell)
    (page : ℕ) : (reloadData p hud cell).1.favoriteIDs page = p.favoriteIDs page := by
  cases hc : cell.owner <;> simp [reloadData, hc]

/-- The callback of a read that found the document ends the tap only if there is
nothing to remove. -/
theorem didGetDocument_stage (p : Pages) (adding : Bool) (cell : SpotCollectionViewCell)
    (dictionary : Dictionary) :
    (didGetDocument p adding cell (.snapshot (some dictionary))).2 =
      if adding = false ∧ newFavoriteArray adding cell.spot.id dictionary = none then .finished
      else .updateData dictionary (newFavoriteArray adding cell.spot.id dictionary) := by
  simp only [didGetDocument]
  cases newFavoriteArray adding cell.spot.id dictionary <;> cases adding <;> rfl

theorem didUpdateData_stage (p : Pages) (hud : HUD) (adding : Bool)
    (cell : SpotCollectionViewCell) (ok : Bool) (ids : Option (List String)) :
    (didUpdateData p hud adding cell ok ids).2.2 = .finished ∨
      (didUpdateData p hud adding cell ok ids).2.2 = .reloadData := by
  simp only [didUpdateData]
  cases adding <;> cases cell.owner <;> simp

@[simp] theorem didUpdateData_cell (p : Pages) (hud : HUD) (adding : Bool)
    (cell : SpotCollectionViewCell) (ok : Bool) (ids : Option (List String)) :
    (didUpdateData p hud adding cell ok ids).1.cell = p.cell := by
  simp only [didUpdateData]
  by_cases ha : adding = true
  · simp [ha]
  · cases cell.owner <;> cases ok <;> simp [ha]

@[simp] theorem reloadData_cell (p : Pages) (hud : HUD) (cell : SpotCollectionViewCell) :
    (reloadData p hud cell).1.cell = p.cell := by
  simp only [reloadData]
  split <;> rfl

/-- The heart of every configured cell tells whether its spot is stored. -/
def HeartsAgree (s : Firestore × Device) (uid : String) : Prop :=
  ∀ c cell, s.2.pages.cell c = some cell →
    (cell.isSelected = true ↔ cell.spot.id ∈ stored s.1 uid)

/-- Everything that one event can do. -/
inductive Step (s : Firestore × Device) : Event → Firestore × Device → Prop where
  | cellForItemAt {c : ℕ} {owner : Owner} {item : ℕ} {spot : Spot}
      (hspot : s.2.pages.spotAt owner item = some spot)
      (howner : ∀ cell ∈ s.2.pages.cell c, cell.owner = owner) :
      Step s (.cellForItemAt c owner item) (s.1, { s.2 with pages := { s.2.pages with
        cell := Function.update s.2.pages.cell c
          (some ⟨owner, spot, s.2.pages.heart owner spot⟩) } })
  | signedOut {c : ℕ} {cell : SpotCollectionViewCell} (hcell : s.2.pages.cell c = some cell)
      (huser : s.2.currentUser = none) :
      Step s (.favoriteButtonDidTap c)
        (s.1, { s.2 with pages := s.2.pages.setSelected c !cell.isSelected })
  | signedIn {c : ℕ} {cell : SpotCollectionViewCell} {uid : String}
      (hcell : s.2.pages.cell c = some cell) (huser : s.2.currentUser = some uid) :
      Step s (.favoriteButtonDidTap c) (s.1, { s.2 with
        pages := s.2.pages.setSelected c !cell.isSelected
        hud := if cell.isSelected then s.2.hud.showLoading else s.2.hud
        taps := s.2.taps ++ [⟨c, uid, cell.spot.id, !cell.isSelected, .getDocument⟩] })
  | getDocument {i : ℕ} {ok : Bool} {tap : Tap} (htap : s.2.taps[i]? = some tap)
      (hstage : tap.stage = .getDocument) :
      Step s (.getDocument i ok)
        (s.1, s.2.setStage i (.didGetDocument (s.1.getDocument (userRef tap.uid) ok)))
  | didGetDocument {i : ℕ} {tap : Tap} {reply : Reply} {cell : SpotCollectionViewCell}
      (htap : s.2.taps[i]? = some tap) (hstage : tap.stage = .didGetDocument reply)
      (hcell : s.2.pages.cell tap.cell = some cell) :
      Step s (.didGetDocument i)
        (s.1, { s.2 with pages := (didGetDocument s.2.pages tap.adding cell reply).1 }.setStage i
          (didGetDocument s.2.pages tap.adding cell reply).2)
  | updateData {i : ℕ} {ok : Bool} {tap : Tap} {dictionary : Dictionary}
      {ids : Option (List String)} (htap : s.2.taps[i]? = some tap)
      (hstage : tap.stage = .updateData dictionary ids) :
      Step s (.updateData i ok) ((update s.1 tap.uid ids ok).1,
        s.2.setStage i (.didUpdateData (update s.1 tap.uid ids ok).2 ids))
  | didUpdateData {i : ℕ} {tap : Tap} {ok : Bool} {ids : Option (List String)}
      {cell : SpotCollectionViewCell} (htap : s.2.taps[i]? = some tap)
      (hstage : tap.stage = .didUpdateData ok ids)
      (hcell : s.2.pages.cell tap.cell = some cell) :
      Step s (.didUpdateData i) (s.1, { s.2 with
        pages := (didUpdateData s.2.pages s.2.hud tap.adding cell ok ids).1
        hud := (didUpdateData s.2.pages s.2.hud tap.adding cell ok ids).2.1 }.setStage i
          (didUpdateData s.2.pages s.2.hud tap.adding cell ok ids).2.2)
  | reloadData {i : ℕ} {tap : Tap} {cell : SpotCollectionViewCell}
      (htap : s.2.taps[i]? = some tap) (hstage : tap.stage = .reloadData)
      (hcell : s.2.pages.cell tap.cell = some cell) :
      Step s (.reloadData i) (s.1, { s.2 with
        pages := (reloadData s.2.pages s.2.hud cell).1
        hud := (reloadData s.2.pages s.2.hud cell).2 }.setStage i .finished)

theorem step_cases {s t : Firestore × Device} {e : Event} (h : step s e = some t) : Step s e t := by
  cases e with
  | cellForItemAt c owner item =>
    simp only [step, Pages.cellForItemAt, Option.map_eq_some_iff] at h
    obtain ⟨pages, hp, rfl⟩ := h
    split at hp
    · cases hp
    · split_ifs at hp with howner
      obtain rfl := Option.some.inj hp
      exact .cellForItemAt ‹_› howner
  | favoriteButtonDidTap c =>
    simp only [step, favoriteButtonDidTap, Option.map_eq_some_iff] at h
    obtain ⟨d, hd, rfl⟩ := h
    split at hd
    · cases hd
    · split at hd <;> obtain rfl := Option.some.inj hd
      · exact .signedOut ‹_› ‹_›
      · exact .signedIn ‹_› ‹_›
  | getDocument i ok =>
    obtain ⟨tap, htap, h⟩ := Option.bind_eq_some_iff.mp h
    simp only [advance] at h
    split at h <;> cases h
    exact .getDocument htap ‹_›
  | didGetDocument i =>
    obtain ⟨tap, htap, h⟩ := Option.bind_eq_some_iff.mp h
    simp only [advance] at h
    split at h <;> cases h
    exact .didGetDocument htap ‹_› ‹_›
  | updateData i ok =>
    obtain ⟨tap, htap, h⟩ := Option.bind_eq_some_iff.mp h
    simp only [advance] at h
    split at h <;> cases h
    exact .updateData htap ‹_›
  | didUpdateData i =>
    obtain ⟨tap, htap, h⟩ := Option.bind_eq_some_iff.mp h
    simp only [advance] at h
    split at h <;> cases h
    exact .didUpdateData htap ‹_› ‹_›
  | reloadData i =>
    obtain ⟨tap, htap, h⟩ := Option.bind_eq_some_iff.mp h
    simp only [advance] at h
    split at h <;> cases h
    exact .reloadData htap ‹_› ‹_›

@[simp] theorem Device.setStage_pages (d : Device) (i : ℕ) (stage : Stage) :
    (d.setStage i stage).pages = d.pages := rfl

/-- A page that shows the spots `a` and `b`, or on which the spots with the given
ids are the favourites, with a cell for every item. -/
def samplePages (owner : Owner) (ids : List String) : Pages :=
  let spots := ["a", "b"].map fun id => sampleSpot id none
  let favorites := ids.map fun id => sampleSpot id none
  let pages : Pages :=
    { spotsViewController := fun _ => ⟨["a", "b"], spots, ids, [], spots, spots.length⟩
      favoriteSpotsViewController := fun _ => ⟨favorites, ids, favorites.length⟩
      cell := fun _ => none }
  { pages with
    cell := fun c => (pages.spotAt owner c).map fun spot =>
      ⟨owner, spot, pages.heart owner spot⟩ }

/-- The account `u` is signed in and has the given favourites. -/
def sampleState (owner : Owner) (ids : List String) : Firestore × Device :=
  (AList.singleton (userRef "u") (favoriteData (some ids)),
    ⟨some "u", ⟨none, 0, []⟩, samplePages owner ids, []⟩)

@[simp] theorem stored_sampleState (owner : Owner) (ids : List String) :
    stored (sampleState owner ids).1 "u" = ids := by
  simp [stored, sampleState, lookup_singleton, favorites, favoriteData, Dictionary.strings]

theorem heartsAgree_sampleState (page : ℕ) (ids : List String) :
    HeartsAgree (sampleState (.city page) ids) "u" := by
  intro c cell h
  obtain ⟨spot, -, rfl⟩ := Option.map_eq_some_iff.mp h
  simp [Pages.heart]

end TaiwanSpots.FavoriteButton
