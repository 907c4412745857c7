import TaiwanSpots.ImportedFeeds
import TaiwanSpots.Numerals
import TaiwanSpots.ProfileCells
import TaiwanSpots.ManyRebuilds

/-!
# What the admin button can do

The button reads a count from its text field and starts a rebuild for an admin. The
count and the download decide how the rebuild ends: with the first entries of the feed
on file, as far as the paths of their ids can be followed, or with a return or a trap that
leaves both collections empty.
-/
namespace TaiwanSpots
open DocumentStore Runs Numerals

/-- The largest value of Swift's `Int`. -/
def Int.maxValue : ℤ := 2 ^ 63 - 1

/-- `Int(text)` -/
def Int.init (text : String) : Option ℤ := Numerals.read 10 Int.minValue Int.maxValue text.toList

example : ["7", "+7", "-0", "007", "9223372036854775807"].map Int.init =
      [some 7, some 7, some 0, some 7, some (2 ^ 63 - 1)] ∧
    ["", "+", "7 ", "７", "1e3", "9223372036854775808"].map Int.init =
      [none, none, none, none, none, none] := by decide

namespace ProfileTableViewCell

/-- The count that the cell hands to its delegate. -/
def apiButtonDidTap (text : Option String) : Option ℤ := text.bind Int.init

end ProfileTableViewCell

/-- A tap on the button of the cell, whose delegate is the profile page of the user. -/
def didTap (text : Option String) (user : User) : Option Rebuild :=
  (ProfileTableViewCell.apiButtonDidTap text).bind fun count => apiButtonDidTap user count

/-- The text is a numeral of an `Int`, and this is its value. -/
def Denotes (text : String) (count : ℤ) : Prop :=
  ∃ negative ds, Numeral 10 text.toList negative ds ∧
    count = signed negative (Nat.ofDigitChars 10 ds 0) ∧ Int.minValue ≤ count ∧ count ≤ Int.maxValue

theorem init_eq_some {text : String} {count : ℤ} :
    Int.init text = some count ↔ Denotes text count :=
  read_eq_some (by decide) (by decide) (by decide)

/-- Every `Int` can be typed. -/
theorem denotes_toString {count : ℤ} (h : Int.minValue ≤ count ∧ count ≤ Int.maxValue) :
    Denotes (toString count) count :=
  init_eq_some.mp (read_toString (by decide) (by decide) h)

theorem didTap_eq_some {text : Option String} {user : User} {p : Rebuild} :
    didTap text user = some p ↔ user.isAdmin = true ∧
      ∃ typed count, text = some typed ∧ Denotes typed count ∧
        p = ⟨count, .removeSpots, ⟨0, 0⟩, []⟩ := by
  simp only [didTap, ProfileTableViewCell.apiButtonDidTap, Option.bind_eq_some_iff, init_eq_some]
  constructor
  · rintro ⟨count, ⟨typed, htext, hcount⟩, hp⟩
    refine ⟨?_, typed, count, htext, hcount, start_of_didTap hp⟩
    by_contra hadmin
    simp [apiButtonDidTap, hadmin] at hp
  · rintro ⟨hadmin, typed, count, htext, hcount, rfl⟩
    exact ⟨count, ⟨typed, htext, hcount⟩, by simp [apiButtonDidTap, hadmin]⟩

/-! How the rebuild ends. -/

/-- No document of a collection that a rebuild sweeps. -/
def Emptied (db : Firestore) : Prop :=
  ∀ k : DocumentReference, k.collection.Listed → db.lookup k = none

/-- The collections hold what the download writes, before a path raises if one does. With IDs
that a document can have these are its spots, each under its own id, and their index. -/
structure Filed (db : Firestore) (spots : List Spot) : Prop where
  lookup : ∀ k : DocumentReference, k.collection.Listed → db.lookup k = imported spots k
  rebuilt : ValidIDs spots → Rebuilt db spots

/-- The stage that the download leads to. -/
def Import.stage : Import → Stage
  | .completed spots => if (updataSpotsAPI spots).trapped then .trapped else .completed
  | .returned => .returned
  | .trapped => .trapped

/-- Once the download has been answered, the stage is one on the way to its own end. -/
structure Rebuild.Heads (download : Import) (count : ℤ) (p : Rebuild) : Prop where
  count_eq : p.count = count
  heads : p.stage = .settingCities ∨ p.stage = .completed ∨ p.stage = .returned ∨
    p.stage = .trapped → download.stage = p.stage ∨ p.stage = .settingCities ∧
      download.stage = .completed

theorem step_heads {o : Outcomes} {count : ℤ} {db : Firestore} {s t : Firestore × Rebuild}
    {e : Event} (ho : o.AllSucceed) (hdb : NamedByID db) (hstart : Untrapped o db s)
    (hs : s.2.Heads (getTaiwanSpots count o.data) count) (h : step o s e = some t) :
    t.2.Heads (getTaiwanSpots count o.data) count := by
  rcases step_cases h with ⟨-, hst, -, rfl⟩ | ⟨-, -, hl, -⟩ | ⟨-, -, -, rfl⟩ | ⟨-, -, hl, -⟩ |
      ⟨-, -, h⟩ | ⟨label, r, rest, -, -, rfl⟩ | ⟨-, -, h⟩
  · have htrap : (removeSpots (s.1.documents .spots)).trapped = false := by
      rw [(hstart.start hst).2]
      exact hdb.untrapped
    exact ⟨hs.count_eq, by simp [Rebuild.issue, htrap]⟩
  · cases ho.1.symm.trans hl
  · exact ⟨hs.count_eq, by simp [Rebuild.issue]⟩
  · cases ho.2.1.symm.trans hl
  · rw [hs.count_eq] at h
    rcases h with ⟨spots, hd, rfl⟩ | ⟨hd, rfl⟩ | ⟨hd, rfl⟩
    · refine ⟨hs.count_eq, fun _ => ?_⟩
      cases htrap : (updataSpotsAPI spots).trapped <;>
        simp [hd, Import.stage, Rebuild.issue, htrap]
    · exact ⟨hs.count_eq, fun _ => .inl (by rw [hd]; rfl)⟩
    · exact ⟨hs.count_eq, fun _ => .inl (by rw [hd]; rfl)⟩
  · exact ⟨hs.count_eq, hs.heads⟩
  · rcases h with ⟨-, rfl⟩ | ⟨-, rfl⟩ | ⟨hst, rfl⟩
    · exact ⟨hs.count_eq, by simp [Rebuild.goto]⟩
    · exact ⟨hs.count_eq, by simp [Rebuild.goto]⟩
    · refine ⟨hs.count_eq, fun _ => .inl ?_⟩
      rcases hs.heads (.inl hst) with hd | ⟨-, hd⟩
      · rw [hst] at hd
        cases hi : getTaiwanSpots count o.data with
        | completed spots =>
          cases htrap : (updataSpotsAPI spots).trapped <;> simp [hi, Import.stage, htrap] at hd
        | returned | trapped =>
          rw [hi] at hd
          cases hd
      · exact hd

/-- A download that yields no spots leaves nothing in the collections that were swept. -/
theorem emptied_sequential {o : Outcomes} {count : ℤ} {db : Firestore} (hdb : NamedByID db)
    (ho : o.AllSucceed) (hd : ∀ spots, getTaiwanSpots count o.data ≠ .completed spots) :
    Emptied (sequential o count db) := by
  obtain ⟨hs, hc, hf⟩ := ho
  have hnothing : ∀ db, importSpots o count db = db := by
    intro db
    unfold importSpots
    cases hi : getTaiwanSpots count o.data with
    | completed spots => exact absurd hi (hd spots)
    | returned | trapped => rfl
  rintro ⟨c, id⟩ hk
  simp only [sequential, clearCities, hnothing, hs, hc, hdb.untrapped, if_true,
    Bool.false_eq_true, if_false]
  rcases hk with rfl | rfl
  · rw [lookup_removeCities_of_ne (by simp), hdb.lookup_removeSpots hf]
  · rw [lookup_removeCities, hf, if_neg (by simp)]

/-- How a rebuild with this count can end. -/
inductive Outcome (data : Option Body) (count : ℤ) (db : Firestore) : Stage → Prop where
  | completed {entries : List Dictionary} {spots : List Spot} (hinfo : info data = some entries)
      (hrange : 1 ≤ count ∧ count ≤ entries.length)
      (hspots : (entries.take count.toNat).mapM Spot.initDictionary = some spots)
      (hids : Resolves spots) (hdb : Filed db spots) : Outcome data count db .completed
  | returned (hinfo : info data = none) (hdb : Emptied db) : Outcome data count db .returned
  | outOfRange {entries : List Dictionary} (hinfo : info data = some entries)
      (hrange : ¬ (1 ≤ count ∧ count ≤ entries.length)) (hdb : Emptied db) :
      Outcome data count db .trapped
  | uncastable {entries : List Dictionary} {d : Dictionary} (hinfo : info data = some entries)
      (hrange : 1 ≤ count ∧ count ≤ entries.length) (hd : d ∈ entries.take count.toNat)
      (hcast : ¬ Castable d) (hdb : Emptied db) : Outcome data count db .trapped
  | unresolved {entries : List Dictionary} {spots : List Spot} (hinfo : info data = some entries)
      (hrange : 1 ≤ count ∧ count ≤ entries.length)
      (hspots : (entries.take count.toNat).mapM Spot.initDictionary = some spots)
      (hids : ¬ Resolves spots) (hdb : Filed db spots) : Outcome data count db .trapped

theorem outcome_of_stage {data : Option Body} {count : ℤ} {db : Firestore}
    (hcompleted : ∀ spots, getTaiwanSpots count data = .completed spots → Filed db spots)
    (hotherwise : (∀ spots, getTaiwanSpots count data ≠ .completed spots) → Emptied db) :
    Outcome data count db (getTaiwanSpots count data).stage := by
  cases hinfo : info data with
  | none =>
    have hd : getTaiwanSpots count data = .returned := by simp only [getTaiwanSpots, hinfo]
    rw [hd]
    exact .returned hinfo (hotherwise fun spots => by simp [hd])
  | some entries =>
    by_cases hrange : 1 ≤ count ∧ count ≤ entries.length
    · by_cases hcast : ∀ d ∈ entries.take count.toNat, Castable d
      · have hspots := mapM_eq_some_filterMap fun d hd => isSome_initDictionary_iff.mpr (hcast d hd)
        have hd := getTaiwanSpots_of_take hinfo hrange.1 hrange.2 hspots
        rw [hd, Import.stage]
        by_cases hids : Resolves ((entries.take count.toNat).filterMap Spot.initDictionary)
        · rw [updataSpotsAPI_trapped.mpr hids, if_neg (by simp)]
          exact .completed hinfo hrange hspots hids (hcompleted _ hd)
        · rw [if_pos (by simpa using mt updataSpotsAPI_trapped.mp hids)]
          exact .unresolved hinfo hrange hspots hids (hcompleted _ hd)
      · push Not at hcast
        obtain ⟨d, hmem, hcast⟩ := hcast
        have hd := getTaiwanSpots_of_not_castable hinfo hmem hcast
        rw [hd]
        exact .uncastable hinfo hrange hmem hcast (hotherwise fun spots => by simp [hd])
    · have hd := getTaiwanSpots_of_not_range hinfo hrange
      rw [hd]
      exact .outOfRange hinfo hrange (hotherwise fun spots => by simp [hd])

/-- Whatever is typed and downloaded: the button starts a rebuild exactly for an admin
who has typed a numeral of an `Int`. Every run of it that has finished has filed the
first entries of the feed, as many as the numeral says, has trapped on the path of an id
while it filed them, or has left both collections empty, because there is no list of
entries, too few of them, or one that cannot be cast. -/
theorem button_outcome {text : Option String} {user : User} {o : Outcomes} {db : Firestore}
    (hdb : NamedByID db) (ho : o.AllSucceed) :
    ((didTap text user).isSome = true ↔
      user.isAdmin = true ∧ ∃ typed count, text = some typed ∧ Denotes typed count) ∧
    ∀ p es t, didTap text user = some p → run (step o) (db, p) es = some t → t.2.Finished →
      ∃ typed count, text = some typed ∧ Denotes typed count ∧
        Outcome o.data count t.1 t.2.stage := by
  constructor
  · rw [Option.isSome_iff_exists]
    simp only [didTap_eq_some]
    constructor
    · rintro ⟨p, hadmin, typed, count, htext, hcount, -⟩
      exact ⟨hadmin, typed, count, htext, hcount⟩
    · rintro ⟨hadmin, typed, count, htext, hcount⟩
      exact ⟨_, hadmin, typed, count, htext, hcount, rfl⟩
  · intro p es t hp hr hf
    obtain ⟨hadmin, typed, count, htext, hcount, rfl⟩ := didTap_eq_some.mp hp
    have hstart : apiButtonDidTap user count = some ⟨count, .removeSpots, ⟨0, 0⟩, []⟩ := by
      simp [apiButtonDidTap, hadmin]
    have hinit : Untrapped o db (db, ⟨count, .removeSpots, ⟨0, 0⟩, []⟩) :=
      ⟨fun _ => ⟨rfl, rfl⟩, .inl rfl, by simp⟩
    have hend := invariant_of_step
      (I := fun m => Untrapped o db m ∧ m.2.Heads (getTaiwanSpots count o.data) count)
      (fun m e m' hm h => ⟨step_untrapped hm.1 h, step_heads ho hdb hm.1 hm.2 h⟩)
      ⟨hinit, rfl, by simp⟩ hr
    have hleft := run_agree_sequential hstart hr hf
    have hstage : (getTaiwanSpots count o.data).stage = t.2.stage := by
      rcases hend.2.heads (.inr hf.1) with hd | ⟨hst, -⟩
      · exact hd
      · rcases hf.1 with h | h | h <;> cases hst.symm.trans h
    refine ⟨typed, count, htext, hcount, ?_⟩
    rw [← hstage]
    refine outcome_of_stage (fun spots hd => ⟨fun k hk => ?_, fun hids =>
      rebuilt_of_agree ho hdb hd hids hleft⟩) fun hd k hk => ?_
    · rw [hleft k, lookup_sequential_eq_imported hdb ho hd hk]
    · rw [hleft k]
      exact emptied_sequential hdb ho hd k hk

/-- A feed of two entries. -/
def samplePair : Outcomes where
  spotsListed := true
  citiesListed := true
  data := sampleFeed [sampleEntry "b" "臺南市", sampleEntry "c" ""]
  fails := fun _ => false

/-- The spot on file is replaced by the first of them. -/
def sampleReplacing : List Event :=
  [.getDocuments, .acknowledge (.deleteSpot "a"), .notify, .getDocuments,
    .acknowledge (.deleteCity "臺東縣"), .notify, .dataTask, .acknowledge (.setCity .TNH),
    .notify, .acknowledge (.setSpot 0)]

/-- One entry is asked for with a sign. -/
theorem button_outcome_sample :
    ∃ p t, didTap (some "+1") sampleAdmin = some p ∧
      run (step samplePair) (sampleDatabase "a" "臺東縣", p) sampleReplacing = some t ∧
      ∃ typed count, some "+1" = some typed ∧ Denotes typed count ∧
        Outcome samplePair.data count t.1 .completed := by
  have hp : didTap (some "+1") sampleAdmin = some ⟨1, .removeSpots, ⟨0, 0⟩, []⟩ := rfl
  have h := (@button_outcome (some "+1") sampleAdmin samplePair (sampleDatabase "a" "臺東縣")
    (namedByID_sampleDatabase (by decide) _) ⟨rfl, rfl, fun _ => rfl⟩).2 _ sampleReplacing _ hp rfl
    ⟨.inl rfl, rfl⟩
  exact ⟨_, _, hp, rfl, h⟩

end TaiwanSpots
