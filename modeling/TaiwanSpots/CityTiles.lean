import TaiwanSpots.Runs
import TaiwanSpots.SearchPage

/-!
# The tiles of the cities

`cellForItemAt` chooses the picture of a tile by its position and the name by the
document behind it, and a tap opens what the document lists. A cell that is reused
keeps its picture where the position has none, and its name where the document has
no city. The listing comes in the order of the document IDs, so that positions and
documents agree when all five cities are there.
-/
namespace TaiwanSpots
open Runs

/-- The picture of a city among the assets. -/
def CityEnum.picture : CityEnum → String
  | TTH => "taitung"
  | HLH => "hualiang"
  | ILH => "ilan"
  | TYH => "taoyun"
  | TNH => "tainan"

theorem CityEnum.picture_injective : Function.Injective CityEnum.picture := by
  intro c c' h
  cases c <;> cases c' <;> first | rfl | exact absurd h (by decide)

structure CityCollectionViewCell where
  backgroundImage : String
  nameLabel : Option String
  deriving DecidableEq, Repr

/-- `setupBackgroundImage` and `setupLabel` -/
def CityCollectionViewCell.init : CityCollectionViewCell := ⟨"Hebe", none⟩

/-- The cases of the switch over the item. -/
def backgroundImage : ℕ → Option String
  | 0 => some "ilan"
  | 1 => some "taoyun"
  | 2 => some "tainan"
  | 3 => some "taitung"
  | 4 => some "hualiang"
  | _ => none

namespace SearchViewController

/-- `cellForItemAt` with the cell that is dequeued; `none` when there is no such item. -/
def cellForItemAt (page : SearchViewController) (cell : CityCollectionViewCell) (item : ℕ) :
    Option CityCollectionViewCell :=
  if item < page.numberOfItems then
    page.cityArray[item]?.map fun cityDict =>
      { backgroundImage := (backgroundImage item).getD cell.backgroundImage
        nameLabel := ((cityDict.keys.head?).map CityEnum.rawValue).or cell.nameLabel }
  else none

/-- The cells of the page, each with the item that it was last configured for; `none`
stands for a cell that has not been created yet. -/
abbrev Tiles := ℕ → Option (CityCollectionViewCell × ℕ)

/-- A cell is created or dequeued, and configured for an item. -/
def configure (page : SearchViewController) (tiles : Tiles) (e : ℕ × ℕ) : Option Tiles :=
  (page.cellForItemAt (((tiles e.1).map Prod.fst).getD .init) e.2).map fun cell =>
    Function.update tiles e.1 (some (cell, e.2))

/-- Picture and name are those of one city, and a tap opens the ids that the
document of this city lists. -/
def ShowsCity (page : SearchViewController) (snapshots : List (String × Dictionary))
    (cell : CityCollectionViewCell) (item : ℕ) : Prop :=
  ∃ (c : CityEnum) (data : Dictionary) (ids : List String),
    cell.backgroundImage = c.picture ∧ cell.nameLabel = some c.rawValue ∧
    (c.rawValue, data) ∈ snapshots ∧ data.strings "cityIds" = some ids ∧
    page.didSelectItemAt item = some (some (c, ids))

/-- The document names a city and lists ids. -/
def namesCity (snapshot : String × Dictionary) : Bool :=
  (CityEnum.ofRawValue snapshot.1).isSome && (snapshot.2.strings "cityIds").isSome

/-- Whatever cells are used for the tiles of a listing, they show what they open, and
there is a tile for every document that names a city and for no other. -/
def TilesRight (snapshots : List (String × Dictionary)) : Prop :=
  ∀ page, load snapshots = some page →
    page.numberOfItems = (snapshots.filter namesCity).length ∧
    ∀ es tiles, run page.configure (fun _ => none) es = some tiles →
      ∀ c cell item, tiles c = some (cell, item) → page.ShowsCity snapshots cell item

/-- The cities in the order of the pictures. -/
def pictureOrder : List CityEnum := [.ILH, .TYH, .TNH, .TTH, .HLH]

theorem backgroundImage_eq (item : ℕ) :
    backgroundImage item = pictureOrder[item]?.map CityEnum.picture := by
  rcases item with _ | _ | _ | _ | _ | item <;> rfl

theorem namesCity_iff {snapshot : String × Dictionary} : namesCity snapshot = true ↔
    ∃ (c : CityEnum) (ids : List String), snapshot.1 = c.rawValue ∧
      snapshot.2.strings "cityIds" = some ids := by
  simp only [namesCity, Bool.and_eq_true, Option.isSome_iff_exists, CityEnum.ofRawValue_eq_some]
  constructor
  · rintro ⟨⟨c, hc⟩, ids, hids⟩
    exact ⟨c, ids, hc.symm, hids⟩
  · rintro ⟨c, ids, hc, hids⟩
    exact ⟨⟨c, hc.symm⟩, ids, hids⟩

theorem citydictionary_of_namesCity {c : CityEnum} {data : Dictionary} {ids : List String}
    (h : data.strings "cityIds" = some ids) :
    citydictionary (c.rawValue, data) = AList.insert c ids ∅ := by
  simp only [citydictionary, h, CityEnum.ofRawValue_eq_some.mpr rfl]

section
variable {snapshots : List (String × Dictionary)} {item : ℕ} {c : CityEnum} {data : Dictionary}
  {ids : List String}

/-- The tile of a document that names a city. -/
theorem cellForItemAt_load (hdoc : snapshots[item]? = some (c.rawValue, data))
    (hids : data.strings "cityIds" = some ids) (cell : CityCollectionViewCell) :
    cellForItemAt ⟨snapshots.map citydictionary, snapshots.length, 0⟩ cell item =
      some ⟨(pictureOrder[item]?.map CityEnum.picture).getD cell.backgroundImage,
        some c.rawValue⟩ := by
  have hitem : item < snapshots.length := (List.getElem?_eq_some_iff.mp hdoc).1
  have hkeys : (AList.insert c ids (∅ : CityEnumDict)).keys = [c] := rfl
  rw [cellForItemAt, if_pos hitem, List.getElem?_map, hdoc, Option.map_some, Option.map_some,
    citydictionary_of_namesCity hids, hkeys, backgroundImage_eq]
  rfl

theorem didSelectItemAt_load (hdoc : snapshots[item]? = some (c.rawValue, data))
    (hids : data.strings "cityIds" = some ids) :
    didSelectItemAt ⟨snapshots.map citydictionary, snapshots.length, 0⟩ item =
      some (some (c, ids)) := by
  have hitem : item < snapshots.length := (List.getElem?_eq_some_iff.mp hdoc).1
  have hkeys : (AList.insert c ids (∅ : CityEnumDict)).keys = [c] := rfl
  rw [didSelectItemAt, if_pos hitem, List.getElem?_map, hdoc, Option.map_some, Option.map_some,
    citydictionary_of_namesCity hids, hkeys, List.head?_cons, Option.bind_some,
    AList.lookup_insert, Option.map_some]

end

/-- The documents of a listing, when their IDs are those of the first cities in the
order of the pictures. -/
theorem document_of_prefix {snapshots : List (String × Dictionary)}
    (hids : ∀ snapshot ∈ snapshots, (snapshot.2.strings "cityIds").isSome = true)
    (horder : snapshots.map Prod.fst <+: pictureOrder.map CityEnum.rawValue) {item : ℕ}
    (hitem : item < snapshots.length) :
    ∃ c data ids, snapshots[item]? = some (c.rawValue, data) ∧ pictureOrder[item]? = some c ∧
      data.strings "cityIds" = some ids := by
  obtain ⟨⟨name, data⟩, hdoc⟩ : ∃ snapshot, snapshots[item]? = some snapshot :=
    ⟨_, List.getElem?_eq_getElem hitem⟩
  obtain ⟨rest, hrest⟩ := horder
  have hname : (pictureOrder.map CityEnum.rawValue)[item]? = some name := by
    rw [← hrest, List.getElem?_append_left (by simpa using hitem), List.getElem?_map, hdoc,
      Option.map_some]
  rw [List.getElem?_map, Option.map_eq_some_iff] at hname
  obtain ⟨c, hc, rfl⟩ := hname
  obtain ⟨ids, hstrings⟩ := Option.isSome_iff_exists.mp (hids _ (List.mem_of_getElem? hdoc))
  exact ⟨c, data, ids, hdoc, hc, hstrings⟩

/-- Whatever cell is dequeued, the picture of the position is set over it. -/
theorem tilesRight_of_prefix {snapshots : List (String × Dictionary)}
    (hids : ∀ snapshot ∈ snapshots, (snapshot.2.strings "cityIds").isSome = true)
    (horder : snapshots.map Prod.fst <+: pictureOrder.map CityEnum.rawValue) :
    TilesRight snapshots := by
  intro page hload
  rw [load_eq, Option.some.injEq] at hload
  subst hload
  constructor
  · rw [eq_comm, List.length_filter_eq_length_iff]
    intro snapshot hs
    obtain ⟨item, hitem, rfl⟩ := List.getElem_of_mem hs
    obtain ⟨c, data, ids, hdoc, -, hstrings⟩ := document_of_prefix hids horder hitem
    rw [List.getElem?_eq_getElem hitem, Option.some.injEq] at hdoc
    rw [hdoc]
    exact namesCity_iff.mpr ⟨c, ids, rfl, hstrings⟩
  · intro es tiles hr
    refine invariant_of_step (I := fun tiles : Tiles => ∀ c cell item,
      tiles c = some (cell, item) → ShowsCity _ snapshots cell item) ?_ (by simp) hr
    rintro tiles ⟨c, item⟩ tiles' htiles hstep c' cell' item' hcell'
    obtain ⟨cell, hcell, rfl⟩ := Option.map_eq_some_iff.mp hstep
    by_cases hc : c' = c
    · subst hc
      rw [Function.update_self, Option.some.injEq, Prod.mk.injEq] at hcell'
      obtain ⟨rfl, rfl⟩ := hcell'
      have hitem : item < snapshots.length := by
        by_contra hlt
        rw [cellForItemAt, if_neg hlt] at hcell
        cases hcell
      obtain ⟨city, data, ids, hdoc, hpicture, hstrings⟩ := document_of_prefix hids horder hitem
      rw [cellForItemAt_load hdoc hstrings, hpicture, Option.some.injEq] at hcell
      subst hcell
      exact ⟨city, data, ids, rfl, rfl, List.mem_of_getElem? hdoc, hstrings,
        didSelectItemAt_load hdoc hstrings⟩
    · rw [Function.update_of_ne hc] at hcell'
      exact htiles c' cell' item' hcell'

/-- The first tile of all is configured on a fresh cell. -/
theorem run_configure_fresh {page : SearchViewController} {item : ℕ}
    {cell : CityCollectionViewCell} (h : page.cellForItemAt .init item = some cell) :
    run page.configure (fun _ => none) [(0, item)] =
      some (Function.update (fun _ => none : Tiles) 0 (some (cell, item))) := by
  have hstep : page.configure (fun _ => none) (0, item) =
      some (Function.update (fun _ => none : Tiles) 0 (some (cell, item))) := by
    simp only [configure, Option.map_none, Option.getD_none, h, Option.map_some]
  exact run_cons.mpr ⟨_, hstep, rfl⟩

/-- A fresh cell shows the name of its document and the picture of its position. -/
theorem prefix_of_tilesRight {snapshots : List (String × Dictionary)} (h : TilesRight snapshots) :
    (∀ snapshot ∈ snapshots, (snapshot.2.strings "cityIds").isSome = true) ∧
      snapshots.map Prod.fst <+: pictureOrder.map CityEnum.rawValue := by
  obtain ⟨hlength, hshows⟩ := h _ (load_eq snapshots)
  rw [eq_comm, List.length_filter_eq_length_iff] at hlength
  refine ⟨fun snapshot hs => ?_, List.prefix_iff_getElem?.mpr fun item hitem => ?_⟩
  · obtain ⟨c, ids, -, hids⟩ := namesCity_iff.mp (hlength snapshot hs)
    simp [hids]
  · rw [List.length_map] at hitem
    obtain ⟨c, ids, hname, hids⟩ := namesCity_iff.mp (hlength _ (List.getElem_mem hitem))
    have hdoc : snapshots[item]? = some (c.rawValue, snapshots[item].2) := by
      rw [List.getElem?_eq_getElem hitem, ← hname]
    have hrun := run_configure_fresh (cellForItemAt_load hdoc hids .init)
    obtain ⟨c', -, -, hpicture, hlabel, -⟩ := hshows _ _ hrun 0 _ item (Function.update_self ..)
    obtain rfl : c = c' := CityEnum.rawValue_injective (Option.some.inj hlabel)
    rw [List.getElem_map, hname, List.getElem?_map]
    cases horder : pictureOrder[item]? with
    | none =>
      rw [horder] at hpicture
      cases c <;> exact absurd hpicture (by decide)
    | some c' =>
      rw [horder, Option.map_some, Option.getD_some] at hpicture
      rw [Option.map_some, CityEnum.picture_injective hpicture]

/-- The tiles of a listing show what they open exactly when every document lists ids
and the documents are, from the first on, those of 宜蘭縣, 桃園市, 臺南市, 臺東縣 and 花蓮縣. -/
theorem tilesRight_iff (snapshots : List (String × Dictionary)) :
    TilesRight snapshots ↔
      (∀ snapshot ∈ snapshots, (snapshot.2.strings "cityIds").isSome = true) ∧
      snapshots.map Prod.fst <+: ["宜蘭縣", "桃園市", "臺南市", "臺東縣", "花蓮縣"] :=
  ⟨prefix_of_tilesRight, fun h => tilesRight_of_prefix h.1 h.2⟩

/-- The only city is 臺東縣, and its tile has the picture of 宜蘭縣. -/
theorem lone_city_not_tilesRight : ¬ TilesRight [("臺東縣", cityDocument ["a"])] := by
  intro h
  obtain ⟨-, hshows⟩ := h _ rfl
  obtain ⟨c, -, -, hpicture, hlabel, -⟩ := hshows [(0, 0)] _ rfl 0 _ 0 rfl
  obtain rfl : CityEnum.TTH = c := CityEnum.rawValue_injective (Option.some.inj hlabel)
  exact absurd hpicture (by decide)

end SearchViewController

end TaiwanSpots
