import TaiwanSpots.CityPage
import TaiwanSpots.FavoritesPage

/-!
# What the two pages load

Both pages fetch the spots of a list of ids, one fetch for each place of the list,
and append a spot to theirs when a document arrives. The replies come in any order,
and the documents may change between them. Whatever has come in, the spots are those
that have been returned, each place counted once, and in the end every place has had its reply;
the collection view of the city is reloaded with every spot, that of the favourites
behind every reply.
-/
namespace TaiwanSpots
open Runs

/-- A reply to the fetch for one place of the list: the documents when it is given,
and whether it is given at all. -/
structure SpotReply where
  index : ℕ
  db : Firestore
  ok : Bool

/-- The spot that a fetch returns, if it returns a document. -/
def SpotReply.spot (ids : List String) (r : SpotReply) : Option Spot :=
  (ids[r.index]?.bind Collection.spots.document).bind fun ref =>
    match r.db.getDocument ref r.ok with
    | .snapshot (some dict) => Spot.initFirestoreDictionary dict
    | _ => none

/-- For every occurrence of an id, the spot that its fetch has returned. -/
def returned (ids : List String) (rs : List SpotReply) : List (Option Spot) :=
  rs.foldl (fun table r => table.set r.index (r.spot ids)) (ids.map fun _ => none)

/-- Every document that a path of Spots can lead to can be decoded. -/
def SpotsDecode (db : Firestore) : Prop :=
  ∀ ref dict, ref.collection.root = .spots → db.lookup ref = some dict →
    (Spot.initFirestoreDictionary dict).isSome = true

theorem returned_concat (ids : List String) (rs : List SpotReply) (r : SpotReply) :
    returned ids (rs ++ [r]) = (returned ids rs).set r.index (r.spot ids) := by
  simp [returned]

theorem length_returned (ids : List String) (rs : List SpotReply) :
    (returned ids rs).length = ids.length := by
  induction rs using List.reverseRecOn with
  | nil => simp [returned]
  | append_singleton rs r ih => rw [returned_concat, List.length_set, ih]

/-- The fetch at a place of the list goes to the document that its id leads to. -/
def Leads (ids : List String) (i : ℕ) (ref : DocumentReference) : Prop :=
  ∃ id, ids[i]? = some id ∧ Collection.spots.document id = some ref

theorem spot_of_document {ids : List String} {r : SpotReply} {ref : DocumentReference}
    {dict : Dictionary} (hid : Leads ids r.index ref) (hok : r.ok = true)
    (hdoc : r.db.lookup ref = some dict) : r.spot ids = Spot.initFirestoreDictionary dict := by
  obtain ⟨id, hid, href⟩ := hid
  simp [SpotReply.spot, hid, href, Firestore.getDocument, hok, hdoc]

theorem spot_of_no_document {ids : List String} {r : SpotReply} {ref : DocumentReference}
    (hid : Leads ids r.index ref)
    (hnone : ∀ dict, r.db.getDocument ref r.ok ≠ .snapshot (some dict)) : r.spot ids = none := by
  obtain ⟨id, hid, href⟩ := hid
  simp only [SpotReply.spot, hid, href, Option.bind_some]

/-- The spots are those returned so far; nothing has been returned for the places that are
still waited for, and every other place has had one reply. -/
structure Collected (ids : List String) (waits : ℕ → Prop) (spots : List Spot)
    (rs : List SpotReply) : Prop where
  waiting : ∀ i, waits i → (returned ids rs)[i]? = some none
  perm : spots.Perm (returned ids rs).reduceOption
  nodup : (rs.map SpotReply.index).Nodup
  answered : ∀ i, i ∈ rs.map SpotReply.index ↔ i < ids.length ∧ ¬ waits i

theorem collected_start {ids : List String} {waits : ℕ → Prop}
    (h : ∀ i, waits i ↔ i < ids.length) : Collected ids waits [] [] := by
  refine ⟨fun i hi => ?_, ?_, List.nodup_nil, fun i => ?_⟩
  · simp [returned, (h i).mp hi]
  · simp [returned, List.reduceOption]
  · simp [h]

theorem Collected.congr {ids : List String} {waits waits' : ℕ → Prop} {spots : List Spot}
    {rs : List SpotReply} (h : Collected ids waits spots rs) (hw : ∀ i, waits' i ↔ waits i) :
    Collected ids waits' spots rs :=
  ⟨fun i hi => h.waiting i ((hw i).mp hi), h.perm, h.nodup, fun i => by rw [hw, h.answered]⟩

/-- A reply that was waited for is waited for no longer, and its spot is appended. -/
theorem Collected.reply {ids : List String} {waits waits' : ℕ → Prop} {spots : List Spot}
    {rs : List SpotReply} {r : SpotReply} (h : Collected ids waits spots rs)
    (hr : waits r.index) (hw : ∀ i, waits' i ↔ waits i ∧ i ≠ r.index) :
    Collected ids waits' (spots ++ (r.spot ids).toList) (rs ++ [r]) := by
  have hplace := h.waiting _ hr
  constructor
  · intro i hi
    obtain ⟨hwait, hne⟩ := (hw i).mp hi
    rw [returned_concat, List.getElem?_set_ne hne.symm]
    exact h.waiting i hwait
  · rw [returned_concat]
    have hnew := reduceOption_set_perm hplace (r.spot ids)
    exact ((h.perm.append_right _).trans List.perm_append_comm).trans hnew.symm
  · rw [List.map_append, List.nodup_append]
    refine ⟨h.nodup, List.nodup_singleton _, fun i hi j hj heq => ?_⟩
    obtain rfl : j = r.index := List.mem_singleton.mp hj
    exact ((h.answered i).mp hi).2 (heq ▸ hr)
  · intro i
    obtain ⟨hlt, -⟩ := List.getElem?_eq_some_iff.mp hplace
    rw [length_returned] at hlt
    rw [List.map_append, List.mem_append, h.answered, hw]
    by_cases hi : i = r.index
    · simp [hi, hlt]
    · simp [hi]

/-- A reply without a document is waited for no longer. -/
theorem Collected.reply_none {ids : List String} {waits waits' : ℕ → Prop} {spots : List Spot}
    {rs : List SpotReply} {r : SpotReply} (h : Collected ids waits spots rs)
    (hr : waits r.index) (hw : ∀ i, waits' i ↔ waits i ∧ i ≠ r.index)
    (hspot : r.spot ids = none) : Collected ids waits' spots (rs ++ [r]) := by
  have hnext := h.reply hr hw
  rwa [hspot, Option.toList_none, List.append_nil] at hnext

/-- When nothing is waited for any more, every place has had exactly one reply. -/
theorem Collected.all_answered {ids : List String} {waits : ℕ → Prop} {spots : List Spot}
    {rs : List SpotReply} (h : Collected ids waits spots rs) (hw : ∀ i, ¬ waits i) :
    (rs.map SpotReply.index).Perm (List.range ids.length) := by
  refine (List.perm_ext_iff_of_nodup h.nodup List.nodup_range).mpr fun i => ?_
  rw [h.answered, List.mem_range]
  exact and_iff_left (hw i)

end TaiwanSpots

namespace TaiwanSpots.CityPage
open Runs

/-- An event, with the documents as they are when it happens. -/
def stepAt (visible : ℕ → Bool) (s : Loading) (x : Firestore × Event) : Option Loading :=
  step x.1 visible s x.2

def spotReply : Firestore × Event → Option SpotReply
  | (db, .didGetSpot i ok) => some ⟨i, db, ok⟩
  | _ => none

/-- The places that are waited for. -/
def Loading.Waits (s : Loading) (i : ℕ) : Prop := ∃ ref, s.spotFetches[i]? = some (some ref)

theorem waits_set {s : Loading} {i j : ℕ} :
    ({ s with spotFetches := s.spotFetches.set i none } : Loading).Waits j ↔
      s.Waits j ∧ j ≠ i := by
  constructor
  · rintro ⟨ref, hj⟩
    rw [List.getElem?_set] at hj
    split_ifs at hj with hij
    · cases hj
    · exact ⟨⟨ref, hj⟩, Ne.symm hij⟩
  · rintro ⟨⟨ref, hj⟩, hne⟩
    exact ⟨ref, (List.getElem?_set_ne hne.symm).trans hj⟩

structure Collecting (ids : List String) (rs : List SpotReply) (s : Loading) : Prop where
  spotIds : s.page.spotIds = ids
  fetching : s.Fetching
  collected : Collected ids s.Waits s.page.spots rs
  shown : Shown s.page

theorem getSpots_collecting {ids : List String} {hud : HUD} {currentUser : Option String}
    {s : Loading} (h : getSpots (vc ids) hud currentUser = some s) : Collecting ids [] s := by
  have hfetching := getSpots_fetching h
  obtain ⟨refs, hrefs, rfl⟩ := getSpots_cases h
  refine ⟨rfl, hfetching, collected_start fun i => ?_, rfl, rfl⟩
  have hlength : ids.length = refs.length := by simpa [vc] using congrArg List.length hrefs
  rw [Loading.Waits, hlength]
  simp [opened, List.getElem?_eq_some_iff]

theorem step_collecting {ids : List String} {rs : List SpotReply} {db : Firestore}
    {visible : ℕ → Bool} {s t : Loading} {e : Event} (hs : Collecting ids rs s)
    (h : step db visible s e = some t) :
    Collecting ids (rs ++ (spotReply (db, e)).toList) t := by
  obtain ⟨rfl, hfetching, hcollected, hshown⟩ := hs
  have hshown' : Shown t.page := step_shown hshown h
  cases step_cases h with
  | @lost i ref hfetch =>
    have hspot : (⟨i, db, false⟩ : SpotReply).spot s.page.spotIds = none :=
      spot_of_no_document (hfetching i ref hfetch) (by simp [Firestore.getDocument])
    exact ⟨rfl, hfetching.set i,
      hcollected.reply_none ⟨ref, hfetch⟩ (fun j => waits_set) hspot, hshown'⟩
  | @missing i ref hfetch hdoc =>
    have hspot : (⟨i, db, true⟩ : SpotReply).spot s.page.spotIds = none :=
      spot_of_no_document (hfetching i ref hfetch) (by simp [Firestore.getDocument, hdoc])
    exact ⟨rfl, hfetching.set i,
      hcollected.reply_none ⟨ref, hfetch⟩ (fun j => waits_set) hspot, hshown'⟩
  | @arrived i ref dict spot hfetch hdoc hdecode =>
    have hspot : (⟨i, db, true⟩ : SpotReply).spot s.page.spotIds = some spot :=
      (spot_of_document (r := ⟨i, db, true⟩) (hfetching i ref hfetch) rfl hdoc).trans hdecode
    have hnext := hcollected.reply (r := ⟨i, db, true⟩) ⟨ref, hfetch⟩ fun j => waits_set
    rw [hspot] at hnext
    exact ⟨rfl, hfetching.set i, hnext, hshown'⟩
  | userLost huser | unlisted huser hnone | listed huser | notify hgroup hnotified =>
    rw [spotReply, Option.toList_none, List.append_nil]
    · exact ⟨rfl, hfetching, hcollected, hshown'⟩
    · simp

/-- In every state of loading, the page has the spots that were returned and shows them. -/
theorem run_collecting {visible : ℕ → Bool} {ids : List String} {hud : HUD}
    {currentUser : Option String} {es : List (Firestore × Event)} {s t : Loading}
    (hopen : getSpots (vc ids) hud currentUser = some s)
    (hr : run (stepAt visible) s es = some t) : Collecting ids (es.filterMap spotReply) t := by
  refine invariant_of_prefix (I := fun es s => Collecting ids (es.filterMap spotReply) s) ?_
    (getSpots_collecting hopen) hr
  intro pre m x m' _ hm hstep
  have hnext := step_collecting hm hstep
  rw [List.filterMap_append]
  cases hx : spotReply x <;> simpa [hx] using hnext

/-- A document that decodes does not trap. -/
theorem isSome_step_didGetSpot {db : Firestore} {visible : ℕ → Bool} {s : Loading} {i : ℕ}
    (hdb : SpotsDecode db) (hs : ∀ ref, some ref ∈ s.spotFetches → ref.collection.root = .spots)
    (hwaits : s.Waits i) (ok : Bool) : (step db visible s (.didGetSpot i ok)).isSome = true := by
  obtain ⟨ref, hi⟩ := hwaits
  have hroot := hs ref (List.mem_of_getElem? hi)
  cases ok with
  | false => simp [step, hi, Firestore.getDocument, didGetSpot]
  | true =>
    cases hdoc : db.lookup ref with
    | none => simp [step, hi, Firestore.getDocument, hdoc, didGetSpot]
    | some dict =>
      simpa [step, hi, Firestore.getDocument, hdoc, didGetSpot] using hdb ref dict hroot hdoc

/-- The page has started in `s` and has come to `t` with the replies `rs`. -/
structure LoadsOnce (visible : ℕ → Bool) (ids : List String) (rs : List SpotReply)
    (s t : Loading) : Prop where
  /-- One fetch is issued for each place of the list. -/
  issued : s.spotFetches = ids.map Collection.spots.document
  /-- Once they have all called back, each place has had one reply. -/
  answered : t.Answered → (rs.map SpotReply.index).Perm (List.range ids.length)
  loaded : t.page.spots.Perm (returned ids rs).reduceOption
  shown : Shown t.page
  untrapped : ∀ db i ok, SpotsDecode db → t.Waits i →
    (step db visible t (.didGetSpot i ok)).isSome = true

theorem loadsOnce {visible : ℕ → Bool} {ids : List String} {hud : HUD}
    {currentUser : Option String} {es : List (Firestore × Event)} {s t : Loading}
    (hopen : getSpots (vc ids) hud currentUser = some s)
    (hr : run (stepAt visible) s es = some t) :
    LoadsOnce visible ids (es.filterMap spotReply) s t := by
  obtain ⟨-, hfetching, hcollected, hshown⟩ := run_collecting hopen hr
  refine ⟨?_, fun hdone => hcollected.all_answered ?_, hcollected.perm, hshown,
    fun db i ok hdb hwaits => isSome_step_didGetSpot hdb (fun ref hmem => ?_) hwaits ok⟩
  · obtain ⟨refs, hrefs, rfl⟩ := getSpots_cases hopen
    exact hrefs.symm
  · rintro i ⟨ref, hi⟩
    cases hdone.1 _ (List.mem_of_getElem? hi)
  · obtain ⟨i, hi⟩ := List.mem_iff_getElem?.mp hmem
    obtain ⟨id, -, href⟩ := hfetching i ref hi
    exact root_of_document href

end TaiwanSpots.CityPage

namespace TaiwanSpots.FavoritesPage
open Runs

/-- An event, with the documents as they are when it happens. -/
def stepAt (s : Loading) (x : Firestore × Event) : Option Loading := step x.1 s x.2

def spotReply : Firestore × Event → Option SpotReply
  | (db, .didGetSpot i ok) => some ⟨i, db, ok⟩
  | _ => none

/-- The spots that the page has at each reload of its collection view. -/
def reloaded (s : Loading) : Firestore × Event → List Spot → List Spot
  | (_, .notify _), _ => s.page.favoriteSpots
  | _, last => last

/-- The list that the reply for the account brings. -/
def accountReply (uid : String) : Firestore × Event → Option (List String)
  | (db, .didGetUser ok) => some (if ok then FavoriteButton.stored db uid else [])
  | _ => none

/-- The stored list, as the account's document has it when it is read. -/
def listed (currentUser : Option String) (es : List (Firestore × Event)) : List String :=
  (currentUser.bind fun uid => es.findSome? (accountReply uid)).getD []

/-- The places that are waited for. -/
def Loading.Waits (s : Loading) (i : ℕ) : Prop := ∃ ref, s.fetches[i]? = some (.getDocument ref)

theorem getElem?_set_getDocument {fetches : List Fetch} {i j : ℕ} {fetch : Fetch}
    {ref : DocumentReference} (hfetch : ∀ ref, fetch ≠ .getDocument ref) :
    (fetches.set i fetch)[j]? = some (.getDocument ref) ↔
      fetches[j]? = some (.getDocument ref) ∧ j ≠ i := by
  constructor
  · intro h
    rw [List.getElem?_set] at h
    split_ifs at h with hij
    · exact absurd (Option.some.inj h) (hfetch ref)
    · exact ⟨h, Ne.symm hij⟩
  · rintro ⟨h, hne⟩
    exact (List.getElem?_set_ne hne.symm).trans h

/-- What holds of the page while it is loaded, with what it had at the last reload:
until the list of ids is there nothing happens, and after that a reload is due
whenever the spots are not those of the last one. -/
structure Collecting (rs : List SpotReply) (last : List Spot) (s : Loading) : Prop where
  fetching : ∀ (i : ℕ) ref, s.fetches[i]? = some (.getDocument ref) →
    Leads s.page.favoriteSpotsIDs i ref
  length_eq : s.fetches.length = s.page.favoriteSpotsIDs.length
  collected : Collected s.page.favoriteSpotsIDs s.Waits s.page.favoriteSpots rs
  unlisted : s.userFetch.isSome = true → s.fetches = [] ∧ s.page.favoriteSpots = [] ∧ rs = []
  reloads : .notify ∈ s.fetches ∨
    last = s.page.favoriteSpots ∧ s.page.numberOfItems = s.page.favoriteSpots.length

theorem viewDidLoad_collecting (hud : HUD) (currentUser : Option String) :
    Collecting [] [] (viewDidLoad hud currentUser) := by
  refine ⟨by simp [viewDidLoad], rfl, collected_start fun i => ?_, fun _ => ⟨rfl, rfl, rfl⟩,
    .inr ⟨rfl, rfl⟩⟩
  simp [viewDidLoad, Loading.Waits]

theorem step_collecting {rs : List SpotReply} {last : List Spot} {db : Firestore} {s t : Loading}
    {e : Event} (hs : Collecting rs last s) (h : step db s e = some t) :
    Collecting (rs ++ (spotReply (db, e)).toList) (reloaded s (db, e) last) t := by
  obtain ⟨hfetching, hlength, hcollected, hunlisted, hreloads⟩ := hs
  have hset : ∀ i j ref, (s.fetches.set i .notify)[j]? = some (.getDocument ref) ↔
      s.fetches[j]? = some (.getDocument ref) ∧ j ≠ i :=
    fun i j ref => getElem?_set_getDocument nofun
  have hwaits : ∀ i j, (∃ ref, (s.fetches.set i .notify)[j]? = some (.getDocument ref)) ↔
      s.Waits j ∧ j ≠ i := by
    intro i j
    simp only [hset, exists_and_right, Loading.Waits]
  cases step_cases h with
  | unlisted huser hnone =>
    simp only [spotReply, reloaded, Option.toList_none, List.append_nil]
    exact ⟨hfetching, hlength, hcollected, by simp, hreloads⟩
  | @listed uid data ids refs huser hdoc hids hrefs =>
    obtain ⟨hfetches, hspots, rfl⟩ := hunlisted (by simp [huser])
    simp only [spotReply, reloaded, Option.toList_none, List.append_nil, hfetches,
      List.nil_append]
    have hsame : ids.length = refs.length := by simpa using congrArg List.length hrefs
    refine ⟨fun i ref hi => ?_, by simp [hsame], ?_, by simp, ?_⟩
    · have href : refs[i]? = some ref := by simpa using hi
      have hpath : (ids.map Collection.spots.document)[i]? = some (some ref) := by
        simp [hrefs, href]
      rw [List.getElem?_map, Option.map_eq_some_iff] at hpath
      exact hpath
    · show Collected ids _ s.page.favoriteSpots []
      rw [hspots]
      refine collected_start fun i => ?_
      rw [Loading.Waits, hsame]
      simp [List.getElem?_eq_some_iff]
    · rcases hreloads with hreloads | hreloads
      · simp [hfetches] at hreloads
      · exact .inr hreloads
  | @missing i ok ref hfetch hnone =>
    have hspot : (⟨i, db, ok⟩ : SpotReply).spot s.page.favoriteSpotsIDs = none :=
      spot_of_no_document (hfetching i ref hfetch) hnone
    have hnext := hcollected.reply_none ⟨ref, hfetch⟩ (hwaits i) hspot
    refine ⟨fun j ref' hj => hfetching j ref' ((hset i j ref').mp hj).1,
      (List.length_set ..).trans hlength, hnext, fun huser => ?_, .inl ?_⟩
    · simp [(hunlisted huser).1] at hfetch
    · exact List.mem_set (List.getElem?_eq_some_iff.mp hfetch).1 _
  | @arrived i ref dict spot hfetch hdoc hdecode =>
    have hspot : (⟨i, db, true⟩ : SpotReply).spot s.page.favoriteSpotsIDs = some spot :=
      (spot_of_document (r := ⟨i, db, true⟩) (hfetching i ref hfetch) rfl hdoc).trans hdecode
    have hnext := hcollected.reply (r := ⟨i, db, true⟩) ⟨ref, hfetch⟩ (hwaits i)
    rw [hspot] at hnext
    refine ⟨fun j ref' hj => hfetching j ref' ((hset i j ref').mp hj).1,
      (List.length_set ..).trans hlength, hnext, fun huser => ?_, .inl ?_⟩
    · simp [(hunlisted huser).1] at hfetch
    · exact List.mem_set (List.getElem?_eq_some_iff.mp hfetch).1 _
  | @notify i hfetch =>
    have hkept : ∀ (j : ℕ) ref, (s.fetches.set i .finished)[j]? = some (.getDocument ref) ↔
        s.fetches[j]? = some (.getDocument ref) := by
      intro j ref
      rw [getElem?_set_getDocument (by simp), and_iff_left_iff_imp]
      rintro hj rfl
      rw [hfetch] at hj
      cases hj
    simp only [spotReply, reloaded, Option.toList_none, List.append_nil]
    refine ⟨fun j ref' hj => hfetching j ref' ((hkept j ref').mp hj),
      (List.length_set ..).trans hlength, hcollected.congr fun j => ?_, fun huser => ?_,
      .inr ⟨rfl, rfl⟩⟩
    · exact exists_congr fun ref => hkept j ref
    · simp [(hunlisted huser).1] at hfetch

/-- In every state of loading, the page has the spots that were returned. -/
theorem run_collecting {hud : HUD} {currentUser : Option String} {es : List (Firestore × Event)}
    {t : Loading} (hr : run stepAt (viewDidLoad hud currentUser) es = some t) :
    Collecting (es.filterMap spotReply)
      (noted stepAt reloaded (viewDidLoad hud currentUser) [] es) t := by
  refine invariant_of_prefix (I := fun es s => Collecting (es.filterMap spotReply)
    (noted stepAt reloaded (viewDidLoad hud currentUser) [] es) s) ?_
    (viewDidLoad_collecting hud currentUser) hr
  intro pre m x m' hpre hm hstep
  have hnext := step_collecting hm hstep
  rw [List.filterMap_append, noted_concat hpre hstep]
  cases hx : spotReply x <;> simpa [hx] using hnext

/-- What holds of the list of ids: it waits for the reply for the account, or has come with it. -/
def Listing (currentUser : Option String) (es : List (Firestore × Event)) (s : Loading) : Prop :=
  (s.userFetch = currentUser ∧ s.page.favoriteSpotsIDs = [] ∧
    ∀ uid, es.findSome? (accountReply uid) = none) ∨
  (s.userFetch = none ∧ ∃ uid, currentUser = some uid ∧
    es.findSome? (accountReply uid) = some s.page.favoriteSpotsIDs)

theorem step_listing {currentUser : Option String} {es : List (Firestore × Event)}
    {db : Firestore} {s t : Loading} {e : Event} (hs : Listing currentUser es s)
    (h : step db s e = some t) : Listing currentUser (es ++ [(db, e)]) t := by
  have hother : t.userFetch = s.userFetch → t.page.favoriteSpotsIDs = s.page.favoriteSpotsIDs →
      (∀ uid, accountReply uid (db, e) = none) → Listing currentUser (es ++ [(db, e)]) t := by
    intro huser hpage hreply
    simp only [Listing, List.findSome?_append, List.findSome?_singleton, hreply, Option.or_none,
      huser, hpage]
    exact hs
  cases step_cases h with
  | @unlisted ok uid huser hnone =>
    rcases hs with ⟨hsame, hnil, hfind⟩ | ⟨hgone, -⟩
    · refine .inr ⟨rfl, uid, hsame.symm.trans huser, ?_⟩
      rw [List.findSome?_append, hfind, Option.none_or, List.findSome?_singleton, accountReply]
      cases ok with
      | false => exact congrArg some hnil.symm
      | true =>
        have hempty := FavoriteButton.stored_of_unlisted hnone
        simp [hempty, hnil]
    · rw [hgone] at huser
      cases huser
  | @listed uid data ids refs huser hdoc hids hrefs =>
    rcases hs with ⟨hsame, hnil, hfind⟩ | ⟨hgone, -⟩
    · refine .inr ⟨rfl, uid, hsame.symm.trans huser, ?_⟩
      rw [List.findSome?_append, hfind, Option.none_or, List.findSome?_singleton, accountReply,
        if_pos rfl, FavoriteButton.stored_of_lookup hdoc, FavoriteButton.favorites_of_strings hids]
    · rw [hgone] at huser
      cases huser
  | missing hfetch hnone => exact hother rfl rfl fun uid => rfl
  | arrived hfetch hdoc hspot => exact hother rfl rfl fun uid => rfl
  | notify hfetch => exact hother rfl rfl fun uid => rfl

/-- The ids of the page are those of the stored list. -/
theorem run_listed {hud : HUD} {currentUser : Option String} {es : List (Firestore × Event)}
    {t : Loading} (hr : run stepAt (viewDidLoad hud currentUser) es = some t) :
    t.page.favoriteSpotsIDs = listed currentUser es := by
  have hlisting := invariant_of_prefix (I := Listing currentUser)
    (fun pre m x m' _ hm hstep => @step_listing _ _ x.1 _ _ x.2 hm hstep)
    (.inl ⟨rfl, rfl, fun uid => rfl⟩) hr
  rw [listed]
  rcases hlisting with ⟨-, hnil, hfind⟩ | ⟨-, uid, rfl, hfind⟩
  · cases currentUser <;> simp [hnil, hfind]
  · simp [hfind]

/-- A document that decodes does not trap. -/
theorem isSome_step_didGetSpot {db : Firestore} {s : Loading} {i : ℕ} (hdb : SpotsDecode db)
    (hs : ∀ ref, .getDocument ref ∈ s.fetches → ref.collection.root = .spots)
    (hwaits : s.Waits i) (ok : Bool) : (step db s (.didGetSpot i ok)).isSome = true := by
  obtain ⟨ref, hi⟩ := hwaits
  have hroot := hs ref (List.mem_of_getElem? hi)
  cases ok with
  | false => simp [step, hi, Firestore.getDocument, didGetSpot]
  | true =>
    cases hdoc : db.lookup ref with
    | none => simp [step, hi, Firestore.getDocument, hdoc, didGetSpot]
    | some dict =>
      simpa [step, hi, Firestore.getDocument, hdoc, didGetSpot] using hdb ref dict hroot hdoc

/-- A stored list whose ids all lead to documents does not trap. -/
theorem isSome_step_didGetUser {db : Firestore} {s : Loading} {uid : String}
    (huser : s.userFetch = some uid)
    (hids : ∀ id ∈ FavoriteButton.stored db uid, (Collection.spots.document id).isSome = true)
    (ok : Bool) : (step db s (.didGetUser ok)).isSome = true := by
  cases ok with
  | false => simp [step, huser, Firestore.getDocument, didGetUser]
  | true =>
    cases hdoc : db.lookup (userRef uid) with
    | none => simp [step, huser, Firestore.getDocument, hdoc, didGetUser]
    | some data =>
      cases hstrings : data.strings "favoriteSpots" with
      | none => simp [step, huser, Firestore.getDocument, hdoc, didGetUser, hstrings]
      | some ids =>
        rw [FavoriteButton.stored_of_lookup hdoc,
          FavoriteButton.favorites_of_strings hstrings] at hids
        simpa [step, huser, Firestore.getDocument, hdoc, didGetUser, hstrings] using
          isSome_mapM_iff.mpr hids

/-- Once every block has run, the last reload was with the spots that are there. -/
theorem Collecting.reloaded_eq {rs : List SpotReply} {last : List Spot} {s : Loading}
    (h : Collecting rs last s) (hdone : s.Done) :
    last = s.page.favoriteSpots ∧ s.page.numberOfItems = s.page.favoriteSpots.length := by
  rcases h.reloads with hdue | hreloaded
  · exact absurd (hdone.2 _ hdue) (by simp)
  · exact hreloaded

/-- The page has come to `t` with the list `ids` and the replies `rs`, and its collection view
was last reloaded with `last`. -/
structure LoadsOnce (ids : List String) (rs : List SpotReply) (last : List Spot) (t : Loading) :
    Prop where
  favoriteSpotsIDs : t.page.favoriteSpotsIDs = ids
  /-- One fetch is issued for each place of the list. -/
  issued : t.fetches.length = ids.length
  /-- Once they have all called back, each place has had one reply. -/
  answered : t.Done → (rs.map SpotReply.index).Perm (List.range ids.length)
  loaded : t.page.favoriteSpots.Perm (returned ids rs).reduceOption
  shown : t.Done → last = t.page.favoriteSpots ∧
    t.page.numberOfItems = t.page.favoriteSpots.length
  untrapped : ∀ db i ok, SpotsDecode db → t.Waits i →
    (step db t (.didGetSpot i ok)).isSome = true
  untrapped_user : ∀ db uid ok, t.userFetch = some uid →
    (∀ id ∈ FavoriteButton.stored db uid, (Collection.spots.document id).isSome = true) →
    (step db t (.didGetUser ok)).isSome = true

theorem loadsOnce {hud : HUD} {currentUser : Option String} {es : List (Firestore × Event)}
    {t : Loading} (hr : run stepAt (viewDidLoad hud currentUser) es = some t) :
    LoadsOnce (listed currentUser es) (es.filterMap spotReply)
      (noted stepAt reloaded (viewDidLoad hud currentUser) [] es) t := by
  have hids := run_listed hr
  have hcollecting := run_collecting hr
  refine ⟨hids, hids ▸ hcollecting.length_eq, fun hdone => ?_, hids ▸ hcollecting.collected.perm,
    hcollecting.reloaded_eq, fun db i ok hdb hwaits => ?_, fun db uid ok huser hpaths => ?_⟩
  · refine hids ▸ hcollecting.collected.all_answered ?_
    rintro i ⟨ref, hi⟩
    cases hdone.2 _ (List.mem_of_getElem? hi)
  · refine isSome_step_didGetSpot hdb (fun ref hmem => ?_) hwaits ok
    obtain ⟨j, hj⟩ := List.mem_iff_getElem?.mp hmem
    obtain ⟨id, -, href⟩ := hcollecting.fetching j ref hj
    exact root_of_document href
  · exact isSome_step_didGetUser huser hpaths ok

end TaiwanSpots.FavoritesPage

namespace TaiwanSpots
open Runs

/-- Whatever the ids, the replies and their order: the page of a city and that of the
favourites have the spots that the fetches have returned, one for each occurrence of
an id; once they have loaded, every place of the list has had one reply and their
collection views have last been loaded with these very spots; and no reply from a store
that decodes traps, nor does a path that leads to a document. -/
theorem pages_load_each_spot_once :
    (∀ (ids : List String) (hud : HUD) (currentUser : Option String),
      ((CityPage.getSpots (CityPage.vc ids) hud currentUser).isSome = true ↔
        ∀ id ∈ ids, (Collection.spots.document id).isSome = true) ∧
      ∀ (visible : ℕ → Bool) (es : List (Firestore × CityPage.Event)) (s t : CityPage.Loading),
        CityPage.getSpots (CityPage.vc ids) hud currentUser = some s →
        run (CityPage.stepAt visible) s es = some t →
          CityPage.LoadsOnce visible ids (es.filterMap CityPage.spotReply) s t) ∧
    ∀ (hud : HUD) (currentUser : Option String) (es : List (Firestore × FavoritesPage.Event))
        (t : FavoritesPage.Loading),
      run FavoritesPage.stepAt (FavoritesPage.viewDidLoad hud currentUser) es = some t →
        FavoritesPage.LoadsOnce (FavoritesPage.listed currentUser es)
          (es.filterMap FavoritesPage.spotReply)
          (noted FavoritesPage.stepAt FavoritesPage.reloaded
            (FavoritesPage.viewDidLoad hud currentUser) [] es) t :=
  ⟨fun _ _ _ => ⟨CityPage.isSome_getSpots, fun _ _ _ _ => CityPage.loadsOnce⟩,
    fun _ _ _ _ => FavoritesPage.loadsOnce⟩

/-- An id that occurs twice, with one fetch that fails, and an id without a document. -/
def sampleCityEvents : List (Firestore × CityPage.Event) :=
  [(CityPage.sampleStore, .didGetSpot 2 true), (CityPage.sampleStore, .didGetSpot 1 true),
    (CityPage.sampleStore, .didGetSpot 0 false)]

/-- The page of these ids. -/
def sampleCityLoading : CityPage.Loading where
  page := CityPage.vc ["a", "c", "a"]
  hud := ⟨some 0, 1, []⟩
  group := ⟨3, 0⟩
  spotFetches := [some ⟨.spots, "a"⟩, some ⟨.spots, "c"⟩, some ⟨.spots, "a"⟩]
  userFetch := none
  notified := false
  cell := fun _ => none

def sampleFavoritesEvents : List (Firestore × FavoritesPage.Event) :=
  [(CityPage.sampleStore, .didGetUser true), (CityPage.sampleStore, .didGetSpot 0 true),
    (CityPage.sampleStore, .notify 0)]

theorem pages_load_each_spot_once_sample :
    (∃ t, run (CityPage.stepAt CityPage.sampleVisible) sampleCityLoading sampleCityEvents =
        some t ∧ t.page.spots.Perm [sampleSpot "a" none]) ∧
      ∃ t, run FavoritesPage.stepAt (FavoritesPage.viewDidLoad ⟨none, 0, []⟩ (some "u"))
          sampleFavoritesEvents = some t ∧ t.page.favoriteSpotsIDs = ["a"] ∧
        t.page.favoriteSpots.Perm [sampleSpot "a" none] ∧
        t.page.numberOfItems = t.page.favoriteSpots.length := by
  have hcity := (pages_load_each_spot_once.1 ["a", "c", "a"] ⟨none, 0, []⟩ none).2
    CityPage.sampleVisible sampleCityEvents sampleCityLoading _ rfl rfl
  have hfavorites := pages_load_each_spot_once.2 ⟨none, 0, []⟩ (some "u") sampleFavoritesEvents _
    rfl
  exact ⟨⟨_, rfl, hcity.loaded⟩, _, rfl, hfavorites.favoriteSpotsIDs, hfavorites.loaded,
    (hfavorites.shown ⟨rfl, by decide⟩).2⟩

end TaiwanSpots
