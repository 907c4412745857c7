import Mathlib.Logic.Function.Basic
import TaiwanSpots.API

/-!
# The spot pages, their cells and the loading indicator

Two kinds of page show spots in cells with a heart: the page of a city, which
is a `SpotsViewController` with its `SpotsCollectionViewController`, and the
page of the favourites. A collection view asks for the items below the count
that it obtained at its last reload. A cell keeps the spot that it was last
given; the heart is computed when the spot is set and by taps only.
-/
namespace TaiwanSpots

/-- `HUD.shared`. The objects are numbered as they are shown; `dismissed` lists
those that were told to dismiss. -/
structure HUD where
  hud : Option ℕ
  shown : ℕ
  dismissed : List ℕ
  deriving DecidableEq, Repr

def HUD.showLoading (h : HUD) : HUD :=
  { h with hud := some h.shown, shown := h.shown + 1 }

def HUD.hideLoading (h : HUD) : HUD :=
  match h.hud with
  | some hud => { h with dismissed := h.dismissed ++ [hud] }
  | none => h

structure SpotsCollectionViewController where
  favoriteSpotsIDs : List String
  spots : List Spot
  /-- The item count of the collection view. -/
  numberOfItems : ℕ

/-- `spots.didSet` reloads the collection view. -/
def SpotsCollectionViewController.setSpots (page : SpotsCollectionViewController)
    (spots : List Spot) : SpotsCollectionViewController :=
  { page with spots := spots, numberOfItems := spots.length }

structure SpotsViewController where
  spotIds : List String
  spots : List Spot
  favoriteSpotsIDs : List String
  spotsCollectionViewController : SpotsCollectionViewController

/-- `spots.didSet` hands the spots on to the collection page. -/
def SpotsViewController.setSpots (page : SpotsViewController) (spots : List Spot) :
    SpotsViewController :=
  { page with
    spots := spots
    spotsCollectionViewController := page.spotsCollectionViewController.setSpots spots }

structure FavoriteSpotsViewController where
  favoriteSpots : List Spot
  favoriteSpotsIDs : List String
  /-- The item count of the collection view. -/
  numberOfItems : ℕ

/-- The page a cell belongs to. A collection view reuses its own cells only, so a
cell never changes hands. -/
inductive Owner where
  | city (page : ℕ)
  | favorites (page : ℕ)
  deriving DecidableEq, Repr

/-- A cell that has been configured. -/
structure SpotCollectionViewCell where
  owner : Owner
  spot : Spot
  isSelected : Bool
  deriving DecidableEq, Repr

/-- The pages that are open, and the cells. -/
structure Pages where
  spotsViewController : ℕ → SpotsViewController
  favoriteSpotsViewController : ℕ → FavoriteSpotsViewController
  cell : ℕ → Option SpotCollectionViewCell

namespace Pages

/-- The spot that `cellForItemAt` reads for an item of a page. A page asks for items
below the count of its last reload only, and traps where its list has become shorter. -/
def spotAt (p : Pages) : Owner → ℕ → Option Spot
  | .city page, item =>
    let controller := (p.spotsViewController page).spotsCollectionViewController
    if item < controller.numberOfItems then controller.spots[item]? else none
  | .favorites page, item =>
    let controller := p.favoriteSpotsViewController page
    if item < controller.numberOfItems then controller.favoriteSpots[item]? else none

/-- The heart that `spot.didSet` gives to a cell. -/
def heart (p : Pages) : Owner → Spot → Bool
  | .city page, spot => decide (spot.id ∈ (p.spotsViewController page).favoriteSpotsIDs)
  | .favorites _, _ => true

/-- The id of the spot that a cell shows. -/
def shownID (p : Pages) (c : ℕ) : Option String := (p.cell c).map fun cell => cell.spot.id

/-- `cellForItemAt`, with the cell that is dequeued. -/
def cellForItemAt (p : Pages) (c : ℕ) (owner : Owner) (item : ℕ) : Option Pages :=
  match p.spotAt owner item with
  | none => none
  | some spot =>
    if ∀ cell ∈ p.cell c, cell.owner = owner then
      some { p with cell := Function.update p.cell c (some ⟨owner, spot, p.heart owner spot⟩) }
    else none

def setSelected (p : Pages) (c : ℕ) (isSelected : Bool) : Pages :=
  { p with cell := Function.update p.cell c ((p.cell c).map fun cell => { cell with isSelected }) }

def updateCityPage (p : Pages) (page : ℕ) (controller : SpotsViewController) : Pages :=
  { p with spotsViewController := Function.update p.spotsViewController page controller }

def updateFavoritesPage (p : Pages) (page : ℕ) (controller : FavoriteSpotsViewController) :
    Pages :=
  { p with
    favoriteSpotsViewController := Function.update p.favoriteSpotsViewController page controller }

/-- Assign to `spotsCollectionViewController.favoriteSpotsIDs`. -/
def setCollectionFavorites (p : Pages) (page : ℕ) (ids : List String) : Pages :=
  let controller := p.spotsViewController page
  let collection := controller.spotsCollectionViewController
  p.updateCityPage page
    { controller with spotsCollectionViewController := { collection with favoriteSpotsIDs := ids } }

/-- Assign to `favoriteSpotsViewCOntroller.favoriteSpotsIDs`. -/
def setFavorites (p : Pages) (page : ℕ) (ids : List String) : Pages :=
  p.updateFavoritesPage page { p.favoriteSpotsViewController page with favoriteSpotsIDs := ids }

/-- Remove the first spot of the favourites page that equals `spot`. -/
def removeFavoriteSpot (p : Pages) (page : ℕ) (spot : Spot) : Pages :=
  let controller := p.favoriteSpotsViewController page
  p.updateFavoritesPage page
    { controller with favoriteSpots := controller.favoriteSpots.eraseP (Spot.equal spot) }

/-- The ids of the spots that a favourites page holds. -/
def favoriteIDs (p : Pages) (page : ℕ) : List String :=
  (p.favoriteSpotsViewController page).favoriteSpots.map Spot.id

/-- `reloadData` on the favourites page. -/
def reloadFavorites (p : Pages) (page : ℕ) : Pages :=
  let controller := p.favoriteSpotsViewController page
  p.updateFavoritesPage page { controller with numberOfItems := controller.favoriteSpots.length }

theorem setSelected_cell (p : Pages) (c : ℕ) (isSelected : Bool) (c' : ℕ) :
    (p.setSelected c isSelected).cell c' =
      if c' = c then (p.cell c).map fun cell => { cell with isSelected } else p.cell c' := by
  simp [setSelected, Function.update_apply]

@[simp] theorem shownID_setSelected (p : Pages) (c : ℕ) (isSelected : Bool) (c' : ℕ) :
    (p.setSelected c isSelected).shownID c' = p.shownID c' := by
  by_cases hc : c' = c
  · subst hc
    simp [shownID, setSelected, Function.comp_def]
  · simp [shownID, setSelected, Function.update_of_ne hc]

@[simp] theorem setCollectionFavorites_cell (p : Pages) (page : ℕ) (ids : List String) :
    (p.setCollectionFavorites page ids).cell = p.cell := rfl

@[simp] theorem setFavorites_cell (p : Pages) (page : ℕ) (ids : List String) :
    (p.setFavorites page ids).cell = p.cell := rfl

@[simp] theorem removeFavoriteSpot_cell (p : Pages) (page : ℕ) (spot : Spot) :
    (p.removeFavoriteSpot page spot).cell = p.cell := rfl

@[simp] theorem reloadFavorites_cell (p : Pages) (page : ℕ) :
    (p.reloadFavorites page).cell = p.cell := rfl

@[simp] theorem favoriteIDs_setCollectionFavorites (p : Pages) (page : ℕ) (ids : List String)
    (page' : ℕ) : (p.setCollectionFavorites page ids).favoriteIDs page' = p.favoriteIDs page' := rfl

/-- An assignment to a page that keeps its spots. -/
theorem favoriteIDs_updateFavoritesPage (p : Pages) {page : ℕ}
    {controller : FavoriteSpotsViewController}
    (h : controller.favoriteSpots = (p.favoriteSpotsViewController page).favoriteSpots)
    (page' : ℕ) : (p.updateFavoritesPage page controller).favoriteIDs page' =
      p.favoriteIDs page' := by
  by_cases hp : page' = page
  · subst hp
    simp [favoriteIDs, updateFavoritesPage, h]
  · simp [favoriteIDs, updateFavoritesPage, Function.update_of_ne hp]

@[simp] theorem favoriteIDs_setFavorites (p : Pages) (page : ℕ) (ids : List String)
    (page' : ℕ) : (p.setFavorites page ids).favoriteIDs page' = p.favoriteIDs page' :=
  p.favoriteIDs_updateFavoritesPage (by rfl) page'

@[simp] theorem favoriteIDs_reloadFavorites (p : Pages) (page page' : ℕ) :
    (p.reloadFavorites page).favoriteIDs page' = p.favoriteIDs page' :=
  p.favoriteIDs_updateFavoritesPage (by rfl) page'

theorem favoriteIDs_removeFavoriteSpot (p : Pages) (page : ℕ) (spot : Spot) (page' : ℕ) :
    (p.removeFavoriteSpot page spot).favoriteIDs page' =
      if page' = page then (p.favoriteIDs page).erase spot.id else p.favoriteIDs page' := by
  split_ifs with hp
  · subst hp
    have hequal : Spot.equal spot = (fun id => id == spot.id) ∘ Spot.id := by
      funext other
      simp [Spot.equal, eq_comm, beq_eq_decide]
    simp [favoriteIDs, removeFavoriteSpot, updateFavoritesPage, List.erase_eq_eraseP',
      List.eraseP_map, hequal]
  · simp [favoriteIDs, removeFavoriteSpot, updateFavoritesPage, Function.update_of_ne hp]

end Pages

end TaiwanSpots
