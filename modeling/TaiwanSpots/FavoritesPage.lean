import TaiwanSpots.Runs
import TaiwanSpots.Pages

/-!
# Loading the page of the favourites

The document of the account is fetched first, then every spot that it lists, each
with a dispatch group of its own. The callback of a spot fetch tests the error of
the outer fetch, which is nil by then, so that every one of them leaves its group;
the block behind it reloads the collection view and hides the indicator.
-/
namespace TaiwanSpots.FavoritesPage
open Runs

/-- What one pass of the loop waits for: its document, the block of its group, or
nothing any more. -/
inductive Fetch where
  | getDocument (ref : DocumentReference)
  | notify
  | finished
  deriving DecidableEq, Repr

structure Loading where
  page : FavoriteSpotsViewController
  hud : HUD
  userFetch : Option String
  fetches : List Fetch

def viewDidLoad (hud : HUD) (currentUser : Option String) : Loading where
  page := ⟨[], [], 0⟩
  hud := hud.showLoading
  userFetch := currentUser
  fetches := []

/-- The callback of the fetch of the account's document; `none` when the path of an id
raises. -/
def didGetUser (s : Loading) : Reply → Option Loading
  | .snapshot (some data) =>
    match data.strings "favoriteSpots" with
    | some favoriteSpotsArray =>
      (favoriteSpotsArray.mapM Collection.spots.document).map fun refs =>
        { s with
          page := { s.page with favoriteSpotsIDs := favoriteSpotsArray }
          fetches := s.fetches ++ refs.map .getDocument }
    | none => some s
  | _ => some s

/-- The callback of a spot fetch; `none` is the trap of the decoder. An error arrives
without a snapshot and is treated like a document that does not exist. -/
def didGetSpot (s : Loading) (i : ℕ) : Reply → Option Loading
  | .snapshot (some dict) =>
    (Spot.initFirestoreDictionary dict).map fun spot =>
      { s with
        page := { s.page with favoriteSpots := s.page.favoriteSpots ++ [spot] }
        fetches := s.fetches.set i .notify }
  | _ => some { s with fetches := s.fetches.set i .notify }

/-- The block behind a spot fetch. -/
def notify (s : Loading) (i : ℕ) : Loading :=
  { s with
    page := { s.page with numberOfItems := s.page.favoriteSpots.length }
    hud := s.hud.hideLoading
    fetches := s.fetches.set i .finished }

inductive Event where
  | didGetUser (ok : Bool)
  | didGetSpot (index : ℕ) (ok : Bool)
  | notify (index : ℕ)
  deriving DecidableEq, Repr

def step (db : Firestore) (s : Loading) : Event → Option Loading
  | .didGetUser ok =>
    s.userFetch.bind fun uid =>
      didGetUser { s with userFetch := none } (db.getDocument (userRef uid) ok)
  | .didGetSpot i ok =>
    match s.fetches[i]? with
    | some (.getDocument ref) => didGetSpot s i (db.getDocument ref ok)
    | _ => none
  | .notify i =>
    match s.fetches[i]? with
    | some .notify => some (notify s i)
    | _ => none

/-- All callbacks and blocks have run. -/
def Loading.Done (s : Loading) : Prop :=
  s.userFetch = none ∧ ∀ fetch ∈ s.fetches, fetch = .finished

/-- Everything that one event can do. -/
inductive Step (db : Firestore) (s : Loading) : Event → Loading → Prop where
  | unlisted {ok : Bool} {uid : String} (huser : s.userFetch = some uid)
      (hnone : ∀ data ids, db.getDocument (userRef uid) ok = .snapshot (some data) →
        data.strings "favoriteSpots" ≠ some ids) :
      Step db s (.didGetUser ok) { s with userFetch := none }
  | listed {uid : String} {data : Dictionary} {ids : List String} {refs : List DocumentReference}
      (huser : s.userFetch = some uid) (hdoc : db.lookup (userRef uid) = some data)
      (hids : data.strings "favoriteSpots" = some ids)
      (hrefs : ids.map Collection.spots.document = refs.map some) :
      Step db s (.didGetUser true)
        { s with
          userFetch := none
          page := { s.page with favoriteSpotsIDs := ids }
          fetches := s.fetches ++ refs.map .getDocument }
  | missing {i : ℕ} {ok : Bool} {ref : DocumentReference}
      (hfetch : s.fetches[i]? = some (.getDocument ref))
      (hnone : ∀ dict, db.getDocument ref ok ≠ .snapshot (some dict)) :
      Step db s (.didGetSpot i ok) { s with fetches := s.fetches.set i .notify }
  | arrived {i : ℕ} {ref : DocumentReference} {dict : Dictionary} {spot : Spot}
      (hfetch : s.fetches[i]? = some (.getDocument ref)) (hdoc : db.lookup ref = some dict)
      (hspot : Spot.initFirestoreDictionary dict = some spot) :
      Step db s (.didGetSpot i true)
        { s with
          page := { s.page with favoriteSpots := s.page.favoriteSpots ++ [spot] }
          fetches := s.fetches.set i .notify }
  | notify {i : ℕ} (hfetch : s.fetches[i]? = some .notify) :
      Step db s (.notify i) (notify s i)

theorem step_cases {db : Firestore} {s t : Loading} {e : Event} (h : step db s e = some t) :
    Step db s e t := by
  cases e with
  | didGetUser ok =>
    obtain ⟨uid, huser, hnext⟩ := Option.bind_eq_some_iff.mp h
    cases hreply : db.getDocument (userRef uid) ok with
    | error =>
      rw [hreply] at hnext
      obtain rfl := Option.some.inj hnext
      exact .unlisted huser (by simp [hreply])
    | snapshot data =>
      rw [hreply] at hnext
      cases data with
      | none =>
        obtain rfl := Option.some.inj hnext
        exact .unlisted huser (by simp [hreply])
      | some data =>
        obtain ⟨rfl, hdoc⟩ := Firestore.getDocument_eq_some hreply
        cases hids : data.strings "favoriteSpots" with
        | none =>
          simp only [didGetUser, hids] at hnext
          obtain rfl := Option.some.inj hnext
          refine .unlisted huser fun data' ids hreply' => ?_
          obtain rfl := Option.some.inj (Reply.snapshot.inj (hreply.symm.trans hreply'))
          simp [hids]
        | some ids =>
          simp only [didGetUser, hids] at hnext
          obtain ⟨refs, hrefs, rfl⟩ := Option.map_eq_some_iff.mp hnext
          exact .listed huser hdoc hids (mapM_eq_some_iff.mp hrefs)
  | didGetSpot i ok =>
    simp only [step] at h
    split at h
    · rename_i ref hfetch
      cases hreply : db.getDocument ref ok with
      | error =>
        rw [hreply] at h
        obtain rfl := Option.some.inj h
        exact .missing hfetch (by simp [hreply])
      | snapshot data =>
        rw [hreply] at h
        cases data with
        | none =>
          obtain rfl := Option.some.inj h
          exact .missing hfetch (by simp [hreply])
        | some dict =>
          obtain ⟨rfl, hdoc⟩ := Firestore.getDocument_eq_some hreply
          obtain ⟨spot, hspot, rfl⟩ := Option.map_eq_some_iff.mp h
          exact .arrived hfetch hdoc hspot
    · cases h
  | notify i =>
    simp only [step] at h
    split at h
    · obtain rfl := Option.some.inj h
      exact .notify ‹_›
    · cases h

end TaiwanSpots.FavoritesPage
