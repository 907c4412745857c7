import TaiwanSpots.FavoriteHearts
import TaiwanSpots.FavoritesPage
import TaiwanSpots.RebuildOutcome

/-!
# Removing favourites one after the other

The page of the favourites keeps two lists beside the array that is stored: the ids
that it was loaded with, and the spots in the order in which they arrived. A removal
searches each of the three for itself. An id without a document is on the first two
and not among the spots.
-/
namespace TaiwanSpots.FavoritesPage
open Runs FavoriteButton

/-- The fetch succeeds. -/
def Event.succeeds : Event → Bool
  | .didGetUser ok | .didGetSpot _ ok => ok
  | .notify _ => true

/-- The id leads to a document. -/
def hasDocument (db : Firestore) (id : String) : Bool := (db.spotDocument id).isSome

/-- For every id with a document, the spot in it; `none` when it cannot be decoded. -/
def documented (db : Firestore) (ids : List String) : List (Option Spot) :=
  ids.filterMap fun id => (db.spotDocument id).map Spot.initFirestoreDictionary

/-- What is still to arrive from a fetch. -/
def Fetch.awaited (db : Firestore) : Fetch → Option (Option Spot)
  | .getDocument ref => (db.lookup ref).map Spot.initFirestoreDictionary
  | _ => none

/-- A page that is being loaded: before the list of ids is there, and after that. -/
inductive Partly (db : Firestore) (uid : String) (s : Loading) : Prop where
  | asked (huser : s.userFetch = some uid) (hpage : s.page = ⟨[], [], 0⟩)
      (hfetches : s.fetches = [])
  | listed (huser : s.userFetch = none) (hids : s.page.favoriteSpotsIDs = stored db uid)
      (hspots : (s.page.favoriteSpots.map some ++ s.fetches.filterMap (Fetch.awaited db)).Perm
        (documented db (stored db uid)))

theorem filterMap_awaited {db : Firestore} {ids : List String} {refs : List DocumentReference}
    (hrefs : ids.map Collection.spots.document = refs.map some) :
    (refs.map Fetch.getDocument).filterMap (Fetch.awaited db) = documented db ids := by
  have hlookup : ∀ fetch : Option DocumentReference,
      (fetch.bind fun ref => db.lookup ref).map Spot.initFirestoreDictionary =
        fetch.bind fun ref => (Fetch.getDocument ref).awaited db := by
    intro fetch
    cases fetch <;> rfl
  have hids : documented db ids = (ids.map Collection.spots.document).filterMap fun fetch =>
      fetch.bind fun ref => (Fetch.getDocument ref).awaited db := by
    simp only [documented, Firestore.spotDocument, hlookup, List.filterMap_map, Function.comp_def]
  rw [hids, hrefs, List.filterMap_map, List.filterMap_map]
  rfl

theorem step_partly {db : Firestore} {uid : String} {s t : Loading} {e : Event}
    (hs : Partly db uid s) (he : e.succeeds = true) (h : step db s e = some t) :
    Partly db uid t := by
  cases hs with
  | asked huser hpage hfetches =>
    cases step_cases h with
    | @unlisted ok uid' huser' hnone =>
      obtain rfl : uid = uid' := Option.some.inj (huser.symm.trans huser')
      obtain rfl : ok = true := he
      have hstored : stored db uid = [] := stored_of_unlisted hnone
      exact .listed rfl (by simp [hpage, hstored]) (by simp [hpage, hfetches, hstored, documented])
    | @listed uid' data ids refs huser' hdoc hids hrefs =>
      obtain rfl : uid = uid' := Option.some.inj (huser.symm.trans huser')
      have hstored : stored db uid = ids :=
        (stored_of_lookup hdoc).trans (favorites_of_strings hids)
      refine .listed rfl hstored.symm ?_
      rw [hstored, hfetches, List.nil_append, filterMap_awaited hrefs, hpage]
      exact List.Perm.refl _
    | missing hfetch | arrived hfetch | notify hfetch => simp [hfetches] at hfetch
  | listed huser hids hspots =>
    cases step_cases h with
    | unlisted huser' | listed huser' => simp [huser] at huser'
    | @missing i ok ref hfetch hnone =>
      obtain rfl : ok = true := he
      have hno : db.lookup ref = none := by
        cases hdoc : db.lookup ref with
        | none => rfl
        | some dict => exact absurd (by simp [Firestore.getDocument, hdoc]) (hnone dict)
      have hmoves := filterMap_set_perm (b := .notify) (f := Fetch.awaited db) hfetch rfl
      rw [Fetch.awaited, hno, Option.map_none, Option.toList_none, List.nil_append] at hmoves
      exact .listed huser hids ((hmoves.symm.append_left _).trans hspots)
    | @arrived i ref dict spot hfetch hdoc hdecode =>
      have hmoves := filterMap_set_perm (b := .notify) (f := Fetch.awaited db) hfetch rfl
      rw [Fetch.awaited, hdoc, Option.map_some, hdecode, Option.toList_some] at hmoves
      refine .listed huser hids (List.Perm.trans ?_ hspots)
      rw [List.map_append, List.map_singleton, List.append_assoc]
      exact hmoves.symm.append_left _
    | @notify i hfetch =>
      have hmoves := filterMap_set_perm (b := .finished) (f := Fetch.awaited db) hfetch rfl
      exact .listed huser hids ((hmoves.symm.append_left _).trans hspots)

/-- A page that has loaded lists what is stored and has the spots with a document. -/
theorem loaded_favorites {db : Firestore} {uid : String} {hud : HUD} {es : List Event}
    {t : Loading} (he : ∀ e ∈ es, e.succeeds = true)
    (hr : run (step db) (viewDidLoad hud (some uid)) es = some t) (hdone : t.Done) :
    t.page.favoriteSpotsIDs = stored db uid ∧
      (t.page.favoriteSpots.map some).Perm (documented db (stored db uid)) := by
  have hend : Partly db uid t :=
    invariant (fun _ _ _ hs he h => step_partly hs he h) (.asked rfl rfl rfl)
      (@along_of_forall _ _ (step db) _ _ _ he) hr
  cases hend with
  | asked huser hpage hfetches => simp [hdone.1] at huser
  | listed huser hids hspots =>
    have hnone : t.fetches.filterMap (Fetch.awaited db) = [] := by
      rw [List.filterMap_eq_nil_iff]
      intro fetch hfetch
      rw [hdone.2 fetch hfetch]
      rfl
    rw [hnone, List.append_nil] at hspots
    exact ⟨hids, hspots⟩

/-- The documents that the stored ids lead to carry these ids. -/
def CarryIDs (db : Firestore) (uid : String) : Prop :=
  ∀ id ∈ stored db uid, ∀ dict, db.spotDocument id = some dict → dict.string "id" = some id

/-- The spots of the page have the ids that have led to them. -/
theorem loaded_ids {db : Firestore} {uid : String} {spots : List Spot} (hdb : CarryIDs db uid)
    (h : (spots.map some).Perm (documented db (stored db uid))) :
    (spots.map Spot.id).Perm ((stored db uid).filter (hasDocument db)) := by
  have hread : ∀ id ∈ stored db uid, (db.spotDocument id).bind (fun dict =>
      (Spot.initFirestoreDictionary dict).map Spot.id) =
        Option.guard (hasDocument db) id := by
    intro id hid
    cases hdoc : db.spotDocument id with
    | none => simp [hasDocument, hdoc, Option.guard]
    | some dict =>
      have hmem : Spot.initFirestoreDictionary dict ∈ documented db (stored db uid) :=
        List.mem_filterMap.mpr ⟨id, hid, by rw [hdoc, Option.map_some]⟩
      obtain ⟨spot, -, hspot⟩ := List.mem_map.mp (h.mem_iff.mpr hmem)
      have hcarried := Spot.string_id_of_initFirestoreDictionary hspot.symm
      rw [hdb id hid dict hdoc, Option.some.injEq] at hcarried
      subst hcarried
      simp [hasDocument, hdoc, ← hspot, Option.guard]
  have hids := h.filterMap fun spot => spot.map Spot.id
  simp only [documented, List.filterMap_map, List.filterMap_filterMap, Function.comp_def,
    Option.map_some, Option.bind_map] at hids
  rw [List.filterMap_congr hread] at hids
  simpa [← List.filterMap_eq_filter] using hids

end TaiwanSpots.FavoritesPage

namespace TaiwanSpots.FavoriteButton
open Runs

/-- The taps are removals on one favourites page; cells are configured in between. -/
def Removal (page : ℕ) (s : Firestore × Device) : Gesture → Prop
  | .tap c => ∀ cell, s.2.pages.cell c = some cell →
      cell.owner = .favorites page ∧ cell.isSelected = true
  | .cellForItemAt .. => True

/-- The id of the spot on the cell that is tapped. -/
def tappedID (s : Firestore × Device) : Gesture → Option String
  | .tap c => s.2.pages.shownID c
  | .cellForItemAt .. => none

/-- What a removal of `id` on a favourites page makes of the array and the lists. -/
structure Removed (uid : String) (page : ℕ) (id : String) (s t : Firestore × Device) : Prop where
  array : stored t.1 uid = (stored s.1 uid).filter (· ≠ id)
  favoriteSpotsIDs : (t.2.pages.favoriteSpotsViewController page).favoriteSpotsIDs =
    stored t.1 uid
  favoriteSpots : t.2.pages.favoriteIDs page = (s.2.pages.favoriteIDs page).filter (· ≠ id)
  nodup : (t.2.pages.favoriteIDs page).Nodup
  documents : ∀ id, id ∈ t.2.pages.favoriteIDs page ↔ id ∈ stored t.1 uid ∧
    FavoritesPage.hasDocument t.1 id = true

/-- A favourites page that is in step with the store, on a device that is idle. -/
structure InStep (uid : String) (page : ℕ) (s : Firestore × Device) : Prop where
  idle : s.2.idle = true
  user : s.2.currentUser = some uid
  stored_nodup : (stored s.1 uid).Nodup
  ids : (s.2.pages.favoriteSpotsViewController page).favoriteSpotsIDs = stored s.1 uid
  nodup : (s.2.pages.favoriteIDs page).Nodup
  documents : ∀ id, id ∈ s.2.pages.favoriteIDs page ↔ id ∈ stored s.1 uid ∧
    FavoritesPage.hasDocument s.1 id = true

theorem erase_eq_filter_ne {ids : List String} (h : ids.Nodup) (id : String) :
    ids.erase id = ids.filter (· ≠ id) := by
  rw [h.erase_eq_filter]
  apply List.filter_congr
  intro other _
  by_cases hother : other = id <;> simp [hother]

section
variable {p : Pages} {cell : SpotCollectionViewCell} {page : ℕ}

theorem favoriteSpotsIDs_afterWrite (howner : cell.owner = .favorites page)
    (hsel : cell.isSelected = true) (ids : List String) :
    ((afterWrite p cell ids true).favoriteSpotsViewController page).favoriteSpotsIDs = ids := by
  simp [afterWrite, howner, hsel, Pages.reloadFavorites, Pages.removeFavoriteSpot,
    Pages.setFavorites, Pages.updateFavoritesPage]

theorem favoriteIDs_afterWrite (howner : cell.owner = .favorites page)
    (hsel : cell.isSelected = true) (ids : List String) :
    (afterWrite p cell ids true).favoriteIDs page = (p.favoriteIDs page).erase cell.spot.id := by
  simp [afterWrite, howner, hsel, Pages.favoriteIDs_removeFavoriteSpot]

end

/-- No event of a tap creates or deletes a document. -/
theorem step_isSome_lookup {s t : Firestore × Device} {e : Event} (h : step s e = some t)
    (ref : DocumentReference) : (t.1.lookup ref).isSome = (s.1.lookup ref).isSome := by
  cases step_cases h with
  | updateData htap hstage => exact isSome_lookup_update ..
  | _ => rfl

theorem tapAlone_hasDocument {ok : Answers} {s t : Firestore × Device} {c : ℕ}
    (h : tapAlone ok s c = some t) (id : String) :
    FavoritesPage.hasDocument t.1 id = FavoritesPage.hasDocument s.1 id := by
  obtain ⟨es, hr⟩ := tapAlone_run h
  have hsame : ∀ ref, (t.1.lookup ref).isSome = (s.1.lookup ref).isSome := fun ref =>
    invariant_of_step (I := fun m => (m.1.lookup ref).isSome = (s.1.lookup ref).isSome)
      (fun _ _ _ hm hstep => (step_isSome_lookup hstep ref).trans hm) rfl hr
  unfold FavoritesPage.hasDocument Firestore.spotDocument
  cases Collection.spots.document id with
  | none => rfl
  | some ref => exact hsame ref

/-- A tap that sends nothing finds nothing to remove. -/
theorem not_mem_stored_of_not_sent {uid : String} {s : Firestore × Device}
    {cell : SpotCollectionViewCell} (huser : s.2.currentUser = some uid)
    (hsel : cell.isSelected = true) (h : sends ⟨true, true⟩ s cell = none) :
    cell.spot.id ∉ stored s.1 uid := by
  cases hdoc : s.1.lookup (userRef uid) with
  | none => simp [stored_of_missing hdoc]
  | some dictionary =>
    have hnone : newFavoriteArray false cell.spot.id dictionary = none := by
      simpa [sends, huser, hdoc, hsel] using h
    rw [stored_of_lookup hdoc, newFavoriteArray_eq_none.mp hnone]
    simp

/-- What a removal makes of the array and of the two lists of the page. -/
theorem tap_erases {uid : String} {page c : ℕ} {s t : Firestore × Device}
    {cell : SpotCollectionViewCell} (hs : InStep uid page s)
    (hcell : s.2.pages.cell c = some cell) (howner : cell.owner = .favorites page)
    (hsel : cell.isSelected = true) (h : tapAlone ⟨true, true⟩ s c = some t) :
    stored t.1 uid = (stored s.1 uid).erase cell.spot.id ∧
      (t.2.pages.favoriteSpotsViewController page).favoriteSpotsIDs = stored t.1 uid ∧
      t.2.pages.favoriteIDs page = (s.2.pages.favoriteIDs page).erase cell.spot.id := by
  obtain ⟨cell', hcell', -, -, h⟩ := tapAlone_cases hs.idle h
  obtain rfl : cell = cell' := Option.some.inj (hcell.symm.trans hcell')
  rcases h with ⟨hsends, hstored, hpages, -⟩ | ⟨uid', ids, hsends, hdb, hpages, -⟩
  · have hgone := not_mem_stored_of_not_sent hs.user hsel hsends
    have hunseen : cell.spot.id ∉ s.2.pages.favoriteIDs page :=
      fun hmem => hgone ((hs.documents _).mp hmem).1
    rw [hstored, List.erase_of_not_mem hgone, List.erase_of_not_mem hunseen, hpages]
    exact ⟨rfl, hs.ids, rfl⟩
  · obtain ⟨huser, -⟩ := sends_eq_some.mp hsends
    obtain rfl : uid = uid' := Option.some.inj (hs.user.symm.trans huser)
    obtain ⟨hwritten, hstored⟩ := sent_written hsends
    rw [hwritten] at hpages
    rw [hdb, hstored, hpages, favoriteSpotsIDs_afterWrite howner hsel,
      favoriteIDs_afterWrite howner hsel]
    exact ⟨sent_of_removal hsel hsends, rfl, rfl⟩

/-- A removal keeps the three lists in step. -/
theorem tap_removed {uid : String} {page c : ℕ} {s t : Firestore × Device}
    {cell : SpotCollectionViewCell} (hs : InStep uid page s)
    (hcell : s.2.pages.cell c = some cell) (howner : cell.owner = .favorites page)
    (hsel : cell.isSelected = true) (h : tapAlone ⟨true, true⟩ s c = some t) :
    InStep uid page t ∧ Removed uid page cell.spot.id s t := by
  obtain ⟨hstored, hids, hspots⟩ := tap_erases hs hcell howner hsel h
  obtain ⟨-, -, hidle, huser, -⟩ := tapAlone_cases hs.idle h
  have hnodup : (t.2.pages.favoriteIDs page).Nodup := hspots ▸ hs.nodup.erase _
  have hdocuments : ∀ id, id ∈ t.2.pages.favoriteIDs page ↔ id ∈ stored t.1 uid ∧
      FavoritesPage.hasDocument t.1 id = true := by
    intro id
    rw [hspots, hstored, hs.nodup.mem_erase_iff, hs.stored_nodup.mem_erase_iff, hs.documents,
      tapAlone_hasDocument h, and_assoc]
  refine ⟨⟨hidle, huser.trans hs.user, hstored ▸ hs.stored_nodup.erase _, hids, hnodup,
    hdocuments⟩, ?_, hids, ?_, hnodup, hdocuments⟩
  · rw [hstored, erase_eq_filter_ne hs.stored_nodup]
  · rw [hspots, erase_eq_filter_ne hs.nodup]

/-- After every removal of a run the array and the lists are as they should be. -/
theorem along_removed {uid : String} {page : ℕ} {s : Firestore × Device} {gs : List Gesture}
    (hs : InStep uid page s) (hgs : Along gesture (Removal page) s gs) :
    Along gesture (fun m g => ∀ id, tappedID m g = some id →
      ∃ t, gesture m g = some t ∧ Removed uid page id m t) s gs := by
  refine along_of_invariant (I := InStep uid page) ?_ ?_ hs hgs
  · intro m g hm hg id hid
    cases g with
    | tap c =>
      obtain ⟨cell, hcell, rfl⟩ := Option.map_eq_some_iff.mp hid
      obtain ⟨howner, hsel⟩ := hg cell hcell
      obtain ⟨t, ht⟩ := Option.isSome_iff_exists.mp
        (@tapAlone_isSome ⟨true, true⟩ _ _ _ _ hm.user hcell)
      exact ⟨t, ht, (tap_removed hm hcell howner hsel ht).2⟩
    | cellForItemAt c owner item => cases hid
  · intro m g t hm hg ht
    cases g with
    | tap c =>
      obtain ⟨cell, hcell, -⟩ := tapAlone_cases hm.idle ht
      obtain ⟨howner, hsel⟩ := hg cell hcell
      exact (tap_removed hm hcell howner hsel ht).1
    | cellForItemAt c owner item =>
      have hstep : step m (.cellForItemAt c owner item) = some t := ht
      cases step_cases hstep with
      | cellForItemAt hspot howner =>
        exact ⟨hm.idle, hm.user, hm.stored_nodup, hm.ids, hm.nodup, hm.documents⟩

/-- A page of favourites without repetitions, some of which may have no document and the
others lead to documents that carry them, that has loaded without failures stays in step with
the store over any removals, each answered in full before the next. -/
theorem removals_in_step {db : Firestore} {uid : String} {page : ℕ} {hud : HUD}
    {es : List FavoritesPage.Event} {load : FavoritesPage.Loading} {d : Device}
    {gs : List Gesture} (hdb : FavoritesPage.CarryIDs db uid) (hnodup : (stored db uid).Nodup)
    (he : ∀ e ∈ es, e.succeeds = true)
    (hload : run (FavoritesPage.step db) (FavoritesPage.viewDidLoad hud (some uid)) es = some load)
    (hdone : load.Done) (hidle : d.idle = true) (huser : d.currentUser = some uid)
    (hpage : d.pages.favoriteSpotsViewController page = load.page)
    (hgs : Along gesture (Removal page) (db, d) gs) :
    Along gesture (fun m g => ∀ id, tappedID m g = some id →
      ∃ t, gesture m g = some t ∧ Removed uid page id m t) (db, d) gs := by
  obtain ⟨hids, hspots⟩ := FavoritesPage.loaded_favorites he hload hdone
  have hfavorites : (d.pages.favoriteIDs page).Perm
      ((stored db uid).filter (FavoritesPage.hasDocument db)) := by
    rw [Pages.favoriteIDs, hpage]
    exact FavoritesPage.loaded_ids hdb hspots
  refine along_removed ⟨hidle, huser, hnodup, hpage ▸ hids, ?_, fun id => ?_⟩ hgs
  · exact hfavorites.nodup_iff.mpr (hnodup.filter _)
  · rw [hfavorites.mem_iff, List.mem_filter]

/-- Three favourites, the first of which has no document. -/
def sampleFavorites : Firestore :=
  ((AList.singleton ⟨.spots, "a"⟩ (sampleSpot "a" (some "臺東縣")).dictionary).insert
    ⟨.spots, "c"⟩ (sampleSpot "c" none).dictionary).insert
    (userRef "u") (favoriteData (some ["b", "a", "c"]))

theorem carryIDs_sampleFavorites : FavoritesPage.CarryIDs sampleFavorites "u" := by
  have hcarried : ∀ id ∈ stored sampleFavorites "u",
      ((sampleFavorites.spotDocument id).all fun dict => dict.string "id" = some id) = true := by
    decide
  intro id hid dict hdoc
  have hthis := hcarried id hid
  rw [hdoc] at hthis
  simpa using hthis

/-- The page that has loaded, on the device of the account `u`. -/
def sampleLoaded : Device where
  currentUser := some "u"
  hud := ⟨none, 0, []⟩
  pages :=
    { spotsViewController := fun _ => ⟨[], [], [], [], [], 0⟩
      favoriteSpotsViewController := fun _ =>
        ⟨[sampleSpot "c" none, sampleSpot "a" (some "臺東縣")], ["b", "a", "c"], 2⟩
      cell := fun _ => none }
  taps := []

/-- The replies for the three favourites, the last one first. -/
def sampleReplies : List FavoritesPage.Event :=
  [.didGetUser true, .didGetSpot 2 true, .didGetSpot 1 true, .didGetSpot 0 true, .notify 0,
    .notify 1, .notify 2]

/-- Both spots are removed on one cell. -/
def sampleRemovals : List Gesture :=
  [.cellForItemAt 0 (.favorites 0) 0, .tap 0, .cellForItemAt 0 (.favorites 0) 0, .tap 0]

theorem removals_in_step_sample :
    ∃ load t, run (FavoritesPage.step sampleFavorites)
        (FavoritesPage.viewDidLoad ⟨none, 0, []⟩ (some "u")) sampleReplies = some load ∧
      sampleLoaded.pages.favoriteSpotsViewController 0 = load.page ∧
      run gesture (sampleFavorites, sampleLoaded) sampleRemovals = some t ∧
      stored t.1 "u" = ["b"] ∧ Along gesture (fun m g => ∀ id, tappedID m g = some id →
        ∃ t, gesture m g = some t ∧ Removed "u" 0 id m t) (sampleFavorites, sampleLoaded)
        sampleRemovals := by
  refine ⟨_, _, rfl, rfl, rfl, by decide, @removals_in_step sampleFavorites "u" 0 ⟨none, 0, []⟩
    sampleReplies _ sampleLoaded sampleRemovals carryIDs_sampleFavorites (by decide) (by decide) rfl
    ⟨rfl, by decide⟩ rfl rfl rfl (along_step trivial rfl (along_step (fun cell hcell => ?_) rfl
      (along_step trivial rfl (along_step (fun cell hcell => ?_) rfl trivial))))⟩
  · obtain rfl := Option.some.inj hcell
    exact ⟨rfl, rfl⟩
  · obtain rfl := Option.some.inj hcell
    exact ⟨rfl, rfl⟩

/-- The favourite `x` leads to a document that carries the id `y`. -/
def sampleRenamed : Firestore :=
  (AList.singleton ⟨.spots, "x"⟩ (sampleSpot "y" none).dictionary).insert (userRef "u")
    (favoriteData (some ["x"]))

/-- The page that has loaded it, on the device of the account `u`. -/
def sampleShowing : Device where
  currentUser := some "u"
  hud := ⟨none, 0, []⟩
  pages :=
    { spotsViewController := fun _ => ⟨[], [], [], [], [], 0⟩
      favoriteSpotsViewController := fun _ => ⟨[sampleSpot "y" none], ["x"], 1⟩
      cell := fun _ => none }
  taps := []

/-- Tapping its heart away removes nothing, neither from the array nor from the page. -/
theorem renamed_favorite_stays :
    ∃ load t, (stored sampleRenamed "u").Nodup ∧
      run (FavoritesPage.step sampleRenamed)
        (FavoritesPage.viewDidLoad ⟨none, 0, []⟩ (some "u"))
        [.didGetUser true, .didGetSpot 0 true, .notify 0] = some load ∧ load.Done ∧
      sampleShowing.pages.favoriteSpotsViewController 0 = load.page ∧
      Along gesture (Removal 0) (sampleRenamed, sampleShowing)
        [.cellForItemAt 0 (.favorites 0) 0, .tap 0] ∧
      run gesture (sampleRenamed, sampleShowing) [.cellForItemAt 0 (.favorites 0) 0, .tap 0] =
        some t ∧
      stored t.1 "u" = ["x"] ∧ t.2.pages.favoriteIDs 0 = ["y"] ∧
      ¬ Along gesture (fun m g => ∀ id, tappedID m g = some id →
        ∃ t, gesture m g = some t ∧ Removed "u" 0 id m t) (sampleRenamed, sampleShowing)
        [.cellForItemAt 0 (.favorites 0) 0, .tap 0] := by
  refine ⟨_, _, by decide, rfl, ⟨rfl, by decide⟩, rfl,
    along_step trivial rfl (along_step (fun cell hcell => ?_) rfl trivial), rfl, by decide,
    by decide, fun h => ?_⟩
  · obtain rfl := Option.some.inj hcell
    exact ⟨rfl, rfl⟩
  · obtain ⟨t, ht, hremoved⟩ := (h.2 _ rfl).1 "y" rfl
    obtain rfl := Option.some.inj ht
    exact absurd hremoved.favoriteSpots (by decide)

end TaiwanSpots.FavoriteButton
