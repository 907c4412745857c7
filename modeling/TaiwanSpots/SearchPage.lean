import TaiwanSpots.Pages

/-!
# The page of the cities

The page lists the collection `Cities` once and shows a tile for every document,
whatever it holds. The tile of a document that has no list of ids, or whose ID
is not the name of a city, has nothing to open.
-/
namespace TaiwanSpots

structure SearchViewController where
  cityArray : List CityEnumDict
  /-- The item count of the collection view. -/
  numberOfItems : ℕ
  /-- The calls of `reloadData` that wait on the main queue. -/
  reloads : ℕ

/-- The page before anything has been loaded. -/
def SearchViewController.init : SearchViewController := ⟨[], 0, 0⟩

/-- `citydictionary` after the loop body has run for a document. -/
def citydictionary (snapshot : String × Dictionary) : CityEnumDict :=
  match snapshot.2.strings "cityIds", CityEnum.ofRawValue snapshot.1 with
  | some cityIds, some cityEnum => AList.insert cityEnum cityIds ∅
  | _, _ => ∅

namespace SearchViewController

/-- The callback of the listing; `none` stands for an error. -/
def didGetDocuments (page : SearchViewController) :
    Option (List (String × Dictionary)) → SearchViewController
  | some snapshots =>
    { page with
      cityArray := page.cityArray ++ snapshots.map citydictionary
      reloads := page.reloads + 1 }
  | none => page

/-- A queued reload runs. -/
def reloadData (page : SearchViewController) : Option SearchViewController :=
  if page.reloads = 0 then none
  else some { page with numberOfItems := page.cityArray.length, reloads := page.reloads - 1 }

/-- `didSelectItemAt`: the city whose page is opened, with its ids. The first `none`
means that there is no such item or that its index is out of range, the second that
the tile opens nothing. -/
def didSelectItemAt (page : SearchViewController) (item : ℕ) :
    Option (Option (CityEnum × List String)) :=
  if item < page.numberOfItems then
    page.cityArray[item]?.map fun cityDict =>
      cityDict.keys.head?.bind fun cityEnum =>
        (cityDict.lookup cityEnum).map fun cityIds => (cityEnum, cityIds)
  else none

/-- A fresh page whose listing has succeeded and which has been reloaded. -/
def load (snapshots : List (String × Dictionary)) : Option SearchViewController :=
  (init.didGetDocuments (some snapshots)).reloadData

theorem load_eq (snapshots : List (String × Dictionary)) :
    load snapshots = some ⟨snapshots.map citydictionary, snapshots.length, 0⟩ := by
  simp [load, init, didGetDocuments, reloadData]

end SearchViewController

end TaiwanSpots
