import TaiwanSpots.RebuildOutcome

/-!
# Which feeds and counts are imported

`getTaiwanSpots` guards against a download that is not a list of entries, and then
takes the first entries and casts their fields by force. It traps on a count that
is out of range and on an entry in which one of these fields has another type.
-/
namespace TaiwanSpots
open Runs

/-- Every field of the entry that is cast by force has its type. -/
structure Castable (d : Dictionary) : Prop where
  id : (d.string "Id").isSome = true
  name : (d.string "Name").isSome = true
  introduction : (d.string "Toldescribe").isSome = true
  phone : (d.string "Tel").isSome = true
  px : (d.double "Px").isSome = true
  py : (d.double "Py").isSome = true
  address : (d.string "Add").isSome = true

theorem isSome_initDictionary_iff {d : Dictionary} :
    (Spot.initDictionary d).isSome = true ↔ Castable d := by
  constructor
  · intro h
    obtain ⟨spot, h⟩ := Option.isSome_iff_exists.mp h
    simp only [Spot.initDictionary, Option.bind_eq_bind, Option.bind_eq_some_iff] at h
    obtain ⟨id, hid, name, hname, introduction, hintroduction, phone, hphone, px, hpx, py, hpy,
      address, haddress, -⟩ := h
    exact ⟨by simp [hid], by simp [hname], by simp [hintroduction], by simp [hphone],
      by simp [hpx], by simp [hpy], by simp [haddress]⟩
  · intro h
    obtain ⟨id, hid⟩ := Option.isSome_iff_exists.mp h.id
    obtain ⟨name, hname⟩ := Option.isSome_iff_exists.mp h.name
    obtain ⟨introduction, hintroduction⟩ := Option.isSome_iff_exists.mp h.introduction
    obtain ⟨phone, hphone⟩ := Option.isSome_iff_exists.mp h.phone
    obtain ⟨px, hpx⟩ := Option.isSome_iff_exists.mp h.px
    obtain ⟨py, hpy⟩ := Option.isSome_iff_exists.mp h.py
    obtain ⟨address, haddress⟩ := Option.isSome_iff_exists.mp h.address
    simp [Spot.initDictionary, hid, hname, hintroduction, hphone, hpx, hpy, haddress]

/-- A loop that decodes every entry ends when all of them decode. -/
theorem mapM_eq_some_filterMap {α β : Type*} {f : α → Option β} {xs : List α}
    (h : ∀ x ∈ xs, (f x).isSome = true) : xs.mapM f = some (xs.filterMap f) := by
  induction xs with
  | nil => rfl
  | cons x xs ih =>
    obtain ⟨y, hy⟩ := Option.isSome_iff_exists.mp (h x (by simp))
    simp [hy, ih fun x' hx' => h x' (by simp [hx'])]

/-- A count that is out of range traps, whatever the entries are. -/
theorem getTaiwanSpots_of_not_range {count : ℤ} {data : Option Body} {entries : List Dictionary}
    (hi : info data = some entries) (h : ¬ (1 ≤ count ∧ count ≤ entries.length)) :
    getTaiwanSpots count data = .trapped := by
  have hslice : slice entries count = none := by
    unfold slice
    split_ifs with hmin hlower hupper
    · rfl
    · rfl
    · rfl
    · exact absurd ⟨by omega, by omega⟩ h
  simp only [getTaiwanSpots, hi, hslice, Option.bind_none]

/-- In range, an entry that cannot be cast traps. -/
theorem getTaiwanSpots_of_not_castable {count : ℤ} {data : Option Body}
    {entries : List Dictionary} {d : Dictionary} (hi : info data = some entries)
    (hd : d ∈ entries.take count.toNat) (h : ¬ Castable d) :
    getTaiwanSpots count data = .trapped := by
  by_cases hrange : 1 ≤ count ∧ count ≤ entries.length
  · have hslice := slice_of_range hrange.1 hrange.2
    have hnone : (entries.take count.toNat).mapM Spot.initDictionary = none := by
      rw [Option.eq_none_iff_forall_ne_some]
      intro spots hspots
      exact h (isSome_initDictionary_iff.mp
        (isSome_mapM_iff.mp (Option.isSome_of_eq_some hspots) d hd))
    simp only [getTaiwanSpots, hi, hslice, Option.bind_some, hnone]
  · exact getTaiwanSpots_of_not_range hi hrange

/-- Of a feed that decodes, the entries that a count asks for are imported exactly when
it asks for one at least and for no more than there are. -/
theorem import_in_range_iff {data : Option Body} {entries : List Dictionary}
    {decoded : List Spot} (hinfo : info data = some entries)
    (hdecode : entries.mapM Spot.initDictionary = some decoded) (count : ℤ) :
    getTaiwanSpots count data =
        .completed (decoded.take (min (max count 0) entries.length).toNat) ↔
      1 ≤ count ∧ count ≤ entries.length := by
  constructor
  · intro h
    by_contra hrange
    rw [getTaiwanSpots_of_not_range hinfo hrange] at h
    cases h
  · rintro ⟨hlower, hupper⟩
    have hclamp : min (max count 0) (entries.length : ℤ) = count := by omega
    rw [hclamp]
    exact getTaiwanSpots_of_decoded hinfo hdecode hlower hupper

theorem import_in_range_iff_sample :
    getTaiwanSpots 1 (sampleFeed [sampleEntry "a" "臺東縣", sampleEntry "b" "花蓮縣"]) =
      .completed [sampleSpot "a" (some "臺東縣")] :=
  (@import_in_range_iff (sampleFeed [sampleEntry "a" "臺東縣", sampleEntry "b" "花蓮縣"])
    [sampleEntry "a" "臺東縣", sampleEntry "b" "花蓮縣"]
    [sampleSpot "a" (some "臺東縣"), sampleSpot "b" (some "花蓮縣")] rfl rfl 1).mpr (by decide)

/-- No entry at all is asked for. -/
theorem count_zero_traps :
    ∃ (data : Option Body) (entries : List Dictionary) (decoded : List Spot),
      info data = some entries ∧ entries.mapM Spot.initDictionary = some decoded ∧
      getTaiwanSpots 0 data ≠
        .completed (decoded.take (min (max 0 0) (entries.length : ℤ)).toNat) := by
  refine ⟨sampleFeed [sampleEntry "a" "臺東縣"], _, _, rfl, rfl, fun h => ?_⟩
  cases h

/-- The import returns early, or hands on the spots of those entries that have every
field that is cast by force. -/
def ImportsCastable (count : ℤ) (data : Option Body) : Prop :=
  getTaiwanSpots count data = .returned ∨
    ∃ entries, info data = some entries ∧ getTaiwanSpots count data =
      .completed ((entries.take count.toNat).filterMap Spot.initDictionary)

/-- Whatever is downloaded, the import ends without a trap exactly when the entries
that the count asks for have every field that is cast by force. -/
theorem import_castable_iff {count : ℤ} {data : Option Body}
    (hcount : ∀ entries, info data = some entries → 1 ≤ count ∧ count ≤ entries.length) :
    ImportsCastable count data ↔
      ∀ entries, info data = some entries → ∀ d ∈ entries.take count.toNat, Castable d := by
  cases hinfo : info data with
  | none =>
    have hreturned : getTaiwanSpots count data = .returned := by simp only [getTaiwanSpots, hinfo]
    exact iff_of_true (.inl hreturned) (by simp)
  | some entries =>
    constructor
    · intro h entries' heq d hd
      obtain rfl := Option.some.inj heq
      by_contra hcast
      have htrap := getTaiwanSpots_of_not_castable hinfo hd hcast
      rcases h with h | ⟨entries', -, h⟩
      · cases htrap.symm.trans h
      · cases htrap.symm.trans h
    · intro h
      obtain ⟨hlower, hupper⟩ := hcount entries hinfo
      refine .inr ⟨entries, hinfo, getTaiwanSpots_of_take hinfo hlower hupper ?_⟩
      exact mapM_eq_some_filterMap fun d hd => isSome_initDictionary_iff.mpr (h entries rfl d hd)

/-- An entry without a telephone number. -/
def sampleSilentEntry (id : String) : Dictionary :=
  [("Id", .string id), ("Name", .string ""), ("Toldescribe", .string ""), ("Tel", .null),
   ("Px", .double ⟨0⟩), ("Py", .double ⟨0⟩), ("Add", .string "")]

/-- An entry as it should be, and one without a telephone number. -/
def sampleSilentFeed : Option Body := sampleFeed [sampleEntry "a" "", sampleSilentEntry "b"]

theorem import_castable_iff_sample :
    ImportsCastable 1 sampleSilentFeed := by
  refine (@import_castable_iff 1 sampleSilentFeed fun entries h => ?_).mpr fun entries h d hd => ?_
  · obtain rfl := Option.some.inj h
    decide
  · obtain rfl := Option.some.inj h
    obtain rfl := List.mem_singleton.mp hd
    exact isSome_initDictionary_iff.mp rfl

theorem missing_phone_traps :
    ∃ (count : ℤ) (data : Option Body) (entries : List Dictionary), info data = some entries ∧
      1 ≤ count ∧ count ≤ entries.length ∧ ¬ ImportsCastable count data := by
  refine ⟨2, sampleSilentFeed, _, rfl, by decide, by decide, ?_⟩
  rintro (h | ⟨entries, -, h⟩) <;> cases h

end TaiwanSpots
