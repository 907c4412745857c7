import TaiwanSpots.Descent
import TaiwanSpots.RebuildTermination
import TaiwanSpots.WholeSystem

/-!
# The system comes to rest

What a user starts is answered and called back a number of times. A tap, a registration,
a login, an upload and the loading of a city page wait for a bounded number of events. A
page of the favourites waits for the document of its account first, which may list any
number of spots. The rank of an app is therefore a pair: the account fetches of its
pages, and then whatever else it waits for.
-/
namespace TaiwanSpots
open DocumentStore Runs

/-- The user starts something that will be answered, an answer or a callback arrives, or
neither. -/
inductive EventKind where
  | start
  | callback
  | neither
  deriving DecidableEq, Repr

/-! Taps on hearts. -/

namespace FavoriteButton

def Event.kind : Event → EventKind
  | .favoriteButtonDidTap _ => .start
  | .cellForItemAt _ _ _ => .neither
  | .getDocument _ _ | .didGetDocument _ | .updateData _ _ | .didUpdateData _
  | .reloadData _ => .callback

/-- How many events the tap still waits for at most. -/
def Stage.remaining : Stage → ℕ
  | .getDocument => 5
  | .didGetDocument _ => 4
  | .updateData _ _ => 3
  | .didUpdateData _ _ => 2
  | .reloadData => 1
  | .finished => 0

def Device.remaining (d : Device) : ℕ := (d.taps.map fun tap => tap.stage.remaining).sum

/-- The cells that have been tapped show a spot. -/
def Device.Configured (d : Device) : Prop :=
  ∀ tap ∈ d.taps, (d.pages.cell tap.cell).isSome = true

theorem remaining_setStage {d : Device} {i : ℕ} {tap : Tap} (h : d.taps[i]? = some tap)
    {stage : Stage} (hlt : stage.remaining < tap.stage.remaining) :
    (d.setStage i stage).remaining < d.remaining :=
  sum_map_modify_lt h hlt

theorem remaining_of_idle {d : Device} (h : d.idle = true) : d.remaining = 0 := by
  refine List.sum_eq_zero (List.forall_mem_map.mpr fun tap htap => ?_)
  have hfinished := List.all_eq_true.mp h tap htap
  cases hstage : tap.stage with
  | finished => rfl
  | getDocument | didGetDocument | updateData | didUpdateData | reloadData =>
    simp [hstage, Stage.isFinished] at hfinished

theorem remaining_didGetDocument (p : Pages) (adding : Bool) (cell : SpotCollectionViewCell)
    (reply : Reply) : (didGetDocument p adding cell reply).2.remaining ≤ 3 := by
  rcases reply with _ | _ | dictionary
  · exact Nat.zero_le 3
  · exact Nat.zero_le 3
  · simp only [didGetDocument]
    cases newFavoriteArray adding cell.spot.id dictionary <;> cases adding <;>
      simp [Stage.remaining]

theorem remaining_didUpdateData (p : Pages) (hud : HUD) (adding : Bool)
    (cell : SpotCollectionViewCell) (ok : Bool) (ids : Option (List String)) :
    (didUpdateData p hud adding cell ok ids).2.2.remaining ≤ 1 := by
  unfold didUpdateData
  cases adding <;> cases cell.owner <;> simp [Stage.remaining]

section
variable {s t : Firestore × Device} {e : Event}

theorem remaining_of_step (h : Step s e t) (he : e.kind = .callback) :
    t.2.remaining < s.2.remaining := by
  cases h with
  | cellForItemAt | signedOut | signedIn => cases he
  | getDocument htap hstage | updateData htap hstage | reloadData htap hstage hcell =>
    exact remaining_setStage htap (by simp [hstage, Stage.remaining])
  | didGetDocument htap hstage hcell =>
    refine remaining_setStage htap ?_
    rw [hstage]
    exact Nat.lt_succ_of_le (remaining_didGetDocument _ _ _ _)
  | didUpdateData htap hstage hcell =>
    refine remaining_setStage htap ?_
    rw [hstage]
    exact Nat.lt_succ_of_le (remaining_didUpdateData _ _ _ _ _ _)

/-- A tap waits for nothing by itself. -/
theorem taps_of_neither (h : Step s e t) (he : e.kind = .neither) : t.2.taps = s.2.taps := by
  cases h with
  | cellForItemAt => rfl
  | signedOut | signedIn | getDocument | didGetDocument | updateData | didUpdateData
  | reloadData => cases he

theorem configured_of_step (hs : s.2.Configured) (h : Step s e t) : t.2.Configured := by
  have hmodify : ∀ (i : ℕ) (stage : Stage),
      ∀ tap ∈ s.2.taps.modify i fun tap => { tap with stage },
        (s.2.pages.cell tap.cell).isSome = true := fun i stage =>
    forall_mem_modify hs fun tap htap => hs tap (List.mem_of_getElem? htap)
  have hselected : ∀ (c : ℕ) (selected : Bool) (c' : ℕ), (s.2.pages.cell c').isSome = true →
      ((s.2.pages.setSelected c selected).cell c').isSome = true := fun c selected c' hc' => by
    rw [Pages.setSelected_cell]
    split_ifs with hc
    · rw [Option.isSome_map, ← hc]
      exact hc'
    · exact hc'
  cases h with
  | @cellForItemAt c owner item spot hspot howner =>
    intro tap htap
    by_cases hc : tap.cell = c
    · simp [hc]
    · simpa [Function.update_of_ne hc] using hs tap htap
  | signedOut hcell huser => exact fun tap htap => hselected _ _ _ (hs tap htap)
  | signedIn hcell huser =>
    refine forall_mem_concat (fun tap htap => hselected _ _ _ (hs tap htap)) ?_
    exact hselected _ _ _ (by rw [hcell]; rfl)
  | getDocument | updateData => exact hmodify _ _
  | didGetDocument =>
    intro tap htap
    simpa [Device.setStage] using hmodify _ _ tap htap
  | didUpdateData =>
    intro tap htap
    simpa [Device.setStage] using hmodify _ _ tap htap
  | reloadData =>
    intro tap htap
    simpa [Device.setStage] using hmodify _ _ tap htap

/-- Whatever a tap waits for can happen. -/
theorem idle_iff {d : Device} (hd : d.Configured) (db : Firestore) :
    (∀ e : Event, e.kind = .callback → step (db, d) e = none) ↔ d.idle = true := by
  constructor
  · intro h
    refine List.all_eq_true.mpr fun tap htap => ?_
    obtain ⟨i, hi⟩ := List.getElem?_of_mem htap
    obtain ⟨cell, hcell⟩ := Option.isSome_iff_exists.mp (hd tap htap)
    cases hstage : tap.stage with
    | finished => rfl
    | getDocument =>
      have hnone := h (.getDocument i false) rfl
      simp [step, hi, advance, hstage] at hnone
    | didGetDocument reply =>
      have hnone := h (.didGetDocument i) rfl
      simp [step, hi, advance, hstage, hcell] at hnone
    | updateData dictionary ids =>
      have hnone := h (.updateData i false) rfl
      simp [step, hi, advance, hstage] at hnone
    | didUpdateData ok ids =>
      have hnone := h (.didUpdateData i) rfl
      simp [step, hi, advance, hstage, hcell] at hnone
    | reloadData =>
      have hnone := h (.reloadData i) rfl
      simp [step, hi, advance, hstage, hcell] at hnone
  · intro h e he
    refine Option.eq_none_iff_forall_ne_some.mpr fun t ht => ?_
    have hlt : t.2.remaining < d.remaining := remaining_of_step (step_cases ht) he
    rw [remaining_of_idle h] at hlt
    exact Nat.not_lt_zero _ hlt

end

end FavoriteButton

/-! The loading of a page. Every event of a loading is a callback. -/

namespace CityPage

def Loading.remaining (s : Loading) : ℕ :=
  (s.spotFetches.map fun fetch => fetch.toList.length).sum + s.userFetch.toList.length +
    (!s.notified).toNat

/-- Every fetch has called back, and if each has left the group, so has its block. -/
structure Loading.AtRest (s : Loading) : Prop where
  answered : s.Answered
  notified : s.group.left = s.group.entered → s.notified = true

variable {db : Firestore} {visible : ℕ → Bool} {s t : Loading} {e : Event}

theorem remaining_set {fetches : List (Option DocumentReference)} {i : ℕ} {ref : DocumentReference}
    (h : fetches[i]? = some (some ref)) :
    ((fetches.set i none).map fun fetch => fetch.toList.length).sum <
      (fetches.map fun fetch => fetch.toList.length).sum := by
  rw [List.set_eq_modify]
  exact sum_map_modify_lt h Nat.zero_lt_one

theorem remaining_of_step (h : Step db visible s e t) : t.remaining < s.remaining := by
  cases h with
  | lost hfetch | missing hfetch hdoc | arrived hfetch hdoc hspot =>
    have hsum := remaining_set hfetch
    simp only [Loading.remaining, Loading.leave]
    omega
  | userLost huser | unlisted huser hnone | listed huser =>
    simp only [Loading.remaining, Loading.leave, huser, Option.toList_some, Option.toList_none,
      List.length_singleton, List.length_nil]
    omega
  | notify hgroup hnotified =>
    simp [Loading.remaining, hnotified]

theorem atRest_iff : (∀ e, step db visible s e = none) ↔ s.AtRest := by
  constructor
  · intro h
    refine ⟨⟨fun fetch hfetch => ?_, ?_⟩, fun hgroup => ?_⟩
    · obtain ⟨i, hi⟩ := List.getElem?_of_mem hfetch
      cases fetch with
      | none => rfl
      | some id => simpa [step, hi, Firestore.getDocument, didGetSpot] using h (.didGetSpot i false)
    · simpa [step] using h (.didGetUser false)
    · simpa [step, hgroup] using h .notify
  · intro h e
    refine Option.eq_none_iff_forall_ne_some.mpr fun t ht => ?_
    cases step_cases ht with
    | lost hfetch | missing hfetch hdoc | arrived hfetch hdoc hspot =>
      cases h.answered.1 _ (List.mem_of_getElem? hfetch)
    | userLost huser | unlisted huser hnone | listed huser =>
      cases h.answered.2.symm.trans huser
    | notify hgroup hnotified => cases (h.notified hgroup).symm.trans hnotified

end CityPage

namespace FavoritesPage

def Fetch.remaining : Fetch → ℕ
  | .getDocument _ => 2
  | .notify => 1
  | .finished => 0

/-- What the page waits for once it knows the favourites. -/
def Loading.remaining (s : Loading) : ℕ := (s.fetches.map Fetch.remaining).sum

/-- Whether the page waits for the document of the account. -/
def Loading.pending (s : Loading) : ℕ := s.userFetch.toList.length

variable {db : Firestore} {s t : Loading} {e : Event}

theorem remaining_set {fetches : List Fetch} {i : ℕ} {fetch fetch' : Fetch}
    (h : fetches[i]? = some fetch) (hlt : fetch'.remaining < fetch.remaining) :
    ((fetches.set i fetch').map Fetch.remaining).sum < (fetches.map Fetch.remaining).sum := by
  rw [List.set_eq_modify]
  exact sum_map_modify_lt h hlt

/-- The answer for the account may start any number of fetches, and comes once. -/
theorem remaining_of_step (h : Step db s e t) :
    t.pending < s.pending ∨ t.pending = s.pending ∧ t.remaining < s.remaining := by
  cases h with
  | unlisted huser hnone | listed huser hdoc hids => exact .inl (by simp [Loading.pending, huser])
  | missing hfetch hnone | arrived hfetch hdoc hspot | notify hfetch =>
    exact .inr ⟨rfl, remaining_set hfetch (by simp [Fetch.remaining])⟩

theorem done_iff : (∀ e, step db s e = none) ↔ s.Done := by
  constructor
  · intro h
    refine ⟨Option.eq_none_iff_forall_ne_some.mpr fun uid huser => ?_, fun fetch hfetch => ?_⟩
    · have hnone := h (.didGetUser false)
      simp [step, huser, Firestore.getDocument, didGetUser] at hnone
    · obtain ⟨i, hi⟩ := List.getElem?_of_mem hfetch
      cases fetch with
      | finished => rfl
      | getDocument ref =>
        have hnone := h (.didGetSpot i false)
        simp [step, hi, Firestore.getDocument, didGetSpot] at hnone
      | notify =>
        have hnone := h (.notify i)
        simp [step, hi] at hnone
  · intro h e
    refine Option.eq_none_iff_forall_ne_some.mpr fun t ht => ?_
    cases step_cases ht with
    | unlisted huser hnone | listed huser hdoc hids => cases h.1.symm.trans huser
    | missing hfetch hnone | arrived hfetch hdoc hspot | notify hfetch =>
      cases h.2 _ (List.mem_of_getElem? hfetch)

end FavoritesPage

/-! The profile page and the registration. -/

namespace Profile

def Event.kind : Event → EventKind
  | .setupData | .signIn _ _ => .start
  | .signOut _ | .write _ _ => .neither
  | .getDocument _ _ | .didGetDocument _ | .didSetImage _ => .callback

def Stage.remaining : Stage → ℕ
  | .getDocument => 3
  | .didGetDocument _ => 2
  | .setImage => 1
  | .finished => 0

def Session.remaining (s : Session) : ℕ := (s.setups.map fun setup => setup.stage.remaining).sum

/-- Every call of `setupData` has run to its end. -/
def Session.AtRest (s : Session) : Prop := ∀ setup ∈ s.setups, setup.stage = .finished

variable {s t : Firestore × Session} {e : Event}

theorem remaining_setStage {s : Session} {i : ℕ} {setup : Setup} (h : s.setups[i]? = some setup)
    {stage : Stage} (hlt : stage.remaining < setup.stage.remaining) :
    (s.setStage i stage).remaining < s.remaining :=
  sum_map_modify_lt h hlt

theorem remaining_of_step (h : Step s e t) (he : e.kind = .callback) :
    t.2.remaining < s.2.remaining := by
  cases h with
  | setupData | signOut | signIn | write => cases he
  | getDocument hsetup hstage | didSetImage hsetup hstage =>
    exact remaining_setStage hsetup (by simp [hstage, Stage.remaining])
  | @didGetDocument i setup reply hsetup hstage =>
    have hsetups : (didGetDocument s.2 reply).1.setups = s.2.setups := by
      rcases reply with _ | _ | dictionary
      · rfl
      · rfl
      · simp only [didGetDocument]
        split <;> rfl
    have hle : (didGetDocument s.2 reply).2.remaining ≤ 1 := by
      rcases reply with _ | _ | dictionary
      · exact Nat.zero_le 1
      · exact Nat.zero_le 1
      · simp only [didGetDocument]
        split <;> simp [Stage.remaining]
    have hlt : (s.2.setStage i (didGetDocument s.2 reply).2).remaining < s.2.remaining :=
      remaining_setStage hsetup (by rw [hstage]; exact Nat.lt_succ_of_le hle)
    simpa only [Session.remaining, Session.setStage, hsetups] using hlt

theorem atRest_iff {db : Firestore} {s : Session} :
    (∀ e : Event, e.kind = .callback → step (db, s) e = none) ↔ s.AtRest := by
  constructor
  · intro h setup hsetup
    obtain ⟨i, hi⟩ := List.getElem?_of_mem hsetup
    cases hstage : setup.stage with
    | finished => rfl
    | getDocument =>
      have hnone := h (.getDocument i false) rfl
      simp [step, hi, hstage] at hnone
    | didGetDocument reply =>
      have hnone := h (.didGetDocument i) rfl
      simp [step, hi, hstage] at hnone
    | setImage =>
      have hnone := h (.didSetImage i) rfl
      simp [step, hi, hstage] at hnone
  · intro h e he
    refine Option.eq_none_iff_forall_ne_some.mpr fun t ht => ?_
    cases step_cases ht with
    | setupData | signOut | signIn | write => cases he
    | getDocument hsetup hstage | didGetDocument hsetup hstage | didSetImage hsetup hstage =>
      cases (h _ (List.mem_of_getElem? hsetup)).symm.trans hstage

end Profile

namespace Registration

def Event.kind : Event → EventKind
  | .finishButtonDidTap _ _ => .start
  | .createUser _ _ | .didCreateUser _ | .setData _ _ | .didSetData _ => .callback

def Stage.remaining : Stage → ℕ
  | .createUser => 4
  | .didCreateUser _ => 3
  | .setData _ _ => 2
  | .didSetData _ => 1
  | .reported _ | .dropped => 0

def Flow.remaining (s : Flow) : ℕ := (s.attempts.map fun a => a.stage.remaining).sum

variable {s t : Firestore × Flow} {e : Event}

theorem remaining_setStage {s : Flow} {i : ℕ} {a : Attempt} (h : s.attempts[i]? = some a)
    {stage : Stage} (hlt : stage.remaining < a.stage.remaining) :
    (s.setStage i stage).remaining < s.remaining :=
  sum_map_modify_lt h hlt

theorem remaining_of_step (h : Step s e t) (he : e.kind = .callback) :
    t.2.remaining < s.2.remaining := by
  cases h with
  | finishButtonDidTap => cases he
  | created ha hstage huid => exact sum_map_modify_lt ha (by simp [hstage, Stage.remaining])
  | refused ha hstage | setData ha hstage =>
    exact remaining_setStage ha (by simp [hstage, Stage.remaining])
  | @didCreateUser i a ok ha hstage =>
    have hattempts : (didCreateUser s.2 a ok).1.attempts = s.2.attempts := by
      unfold didCreateUser
      split_ifs
      · split <;> rfl
      · rfl
    have hle : (didCreateUser s.2 a ok).2.remaining ≤ 2 := by
      unfold didCreateUser
      split_ifs
      · split <;> simp [Stage.remaining]
      · simp [Stage.remaining]
    have hlt : (s.2.setStage i (didCreateUser s.2 a ok).2).remaining < s.2.remaining :=
      remaining_setStage ha (by rw [hstage]; exact Nat.lt_succ_of_le hle)
    simpa only [Flow.remaining, Flow.setStage, hattempts] using hlt
  | didSetData ha hstage =>
    exact remaining_setStage (s := s.2) ha (by simp [hstage, Stage.remaining, didSetData])

theorem idle_iff {db : Firestore} {s : Flow} :
    (∀ e : Event, e.kind = .callback → step (db, s) e = none) ↔ s.idle = true := by
  constructor
  · intro h
    refine List.all_eq_true.mpr fun a ha => ?_
    obtain ⟨i, hi⟩ := List.getElem?_of_mem ha
    cases hstage : a.stage with
    | reported | dropped => rfl
    | createUser =>
      have hnone := h (.createUser i none) rfl
      simp [step, hi, advance, hstage] at hnone
    | didCreateUser ok =>
      have hnone := h (.didCreateUser i) rfl
      simp [step, hi, advance, hstage] at hnone
    | setData uid userDict =>
      have hnone := h (.setData i false) rfl
      simp [step, hi, advance, hstage] at hnone
    | didSetData ok =>
      have hnone := h (.didSetData i) rfl
      simp [step, hi, advance, hstage] at hnone
  · intro h e he
    have hover : ∀ {i : ℕ} {a : Attempt}, s.attempts[i]? = some a → a.stage.isOver = true :=
      fun ha => List.all_eq_true.mp h _ (List.mem_of_getElem? ha)
    refine Option.eq_none_iff_forall_ne_some.mpr fun t ht => ?_
    cases step_cases ht with
    | finishButtonDidTap => cases he
    | created ha hstage | refused ha hstage | didCreateUser ha hstage | setData ha hstage
    | didSetData ha hstage => simpa [hstage, Stage.isOver] using hover ha

end Registration

/-! The tabs and the app. Pages have numbers below `n`. -/

namespace Screens

def Event.kind : Event → EventKind
  | .didSelectCity _ _ | .openFavorites _ => .start
  | .signOut | .signIn _ | .write _ _ | .didSelectSpot _ _ => .neither
  | .didGetDocuments _ | .reloadData | .city _ _ | .favorites _ _ => .callback
  | .device e => e.kind

namespace Tabs

/-- How many pages of the favourites wait for the document of the account. -/
def pending (n : ℕ) (s : Tabs) : ℕ :=
  ∑ page ∈ Finset.range n, (s.favoritesLoads page).elim 0 FavoritesPage.Loading.pending

/-- The listing of the cities is followed by a reload. -/
def remaining (n : ℕ) (s : Tabs) : ℕ :=
  2 * s.listing.toNat + s.searchViewController.reloads + s.device.remaining +
    ∑ page ∈ Finset.range n, (s.cityLoads page).elim 0 CityPage.Loading.remaining +
    ∑ page ∈ Finset.range n, (s.favoritesLoads page).elim 0 FavoritesPage.Loading.remaining

structure Ready (n : ℕ) (s : Tabs) : Prop where
  cities : ∀ page loading, s.cityLoads page = some loading → page < n
  favorites : ∀ page loading, s.favoritesLoads page = some loading → page < n
  configured : s.device.Configured

structure AtRest (s : Tabs) : Prop where
  listing : s.listing = false
  reloads : s.searchViewController.reloads = 0
  taps : s.device.idle = true
  cities : ∀ page loading, s.cityLoads page = some loading → loading.AtRest
  favorites : ∀ page loading, s.favoritesLoads page = some loading → loading.Done

end Tabs

section
variable {s t : Firestore × Tabs} {e : Event} {n : ℕ}

/-- Only an event that starts something opens a page. -/
theorem ready_of_step (hs : s.2.Ready n) (h : Step s e t) :
    ∃ m, t.2.Ready m ∧ (e.kind ≠ .start → m = n) := by
  cases h with
  | signOut | signIn | write | didGetDocuments | reloadData | noCity | didSelectSpot =>
    exact ⟨n, ⟨hs.cities, hs.favorites, hs.configured⟩, fun _ => rfl⟩
  | @openCity item page cityEnum cityIds hitem hfresh =>
    refine ⟨max n (page + 1), ⟨?_, ?_, hs.configured⟩, fun h => absurd rfl h⟩
    · exact forall_update_some
        (fun page' loading hloading => lt_max_of_lt_left (hs.cities page' loading hloading))
        (fun _ _ => lt_max_of_lt_right page.lt_succ_self)
    · exact fun page' loading hloading => lt_max_of_lt_left (hs.favorites page' loading hloading)
  | @openFavorites page hfresh =>
    refine ⟨max n (page + 1), ⟨?_, ?_, hs.configured⟩, fun h => absurd rfl h⟩
    · exact fun page' loading hloading => lt_max_of_lt_left (hs.cities page' loading hloading)
    · exact forall_update_some
        (fun page' loading hloading => lt_max_of_lt_left (hs.favorites page' loading hloading))
        (fun _ _ => lt_max_of_lt_right page.lt_succ_self)
  | city hloading hstep =>
    exact ⟨n, ⟨forall_update_some hs.cities fun _ _ => hs.cities _ _ hloading,
      hs.favorites, hs.configured⟩, fun _ => rfl⟩
  | favorites hloading hstep =>
    exact ⟨n, ⟨hs.cities, forall_update_some hs.favorites fun _ _ =>
      hs.favorites _ _ hloading, hs.configured⟩, fun _ => rfl⟩
  | device hstep =>
    exact ⟨n, ⟨hs.cities, hs.favorites, FavoriteButton.configured_of_step hs.configured hstep⟩,
      fun _ => rfl⟩

theorem remaining_of_neither (h : Step s e t) (he : e.kind = .neither) :
    t.2.pending n = s.2.pending n ∧ t.2.remaining n = s.2.remaining n := by
  cases h with
  | signOut | signIn | write | didSelectSpot => exact ⟨rfl, rfl⟩
  | @device e db d hstep =>
    have htaps : d.taps = s.2.device.taps := FavoriteButton.taps_of_neither hstep he
    refine ⟨rfl, ?_⟩
    simp only [Tabs.remaining, FavoriteButton.Device.remaining, htaps]
  | didGetDocuments | reloadData | noCity | openCity | openFavorites | city | favorites => cases he

/-- The answer for the account of a page may start any number of fetches. -/
theorem remaining_of_step (hs : s.2.Ready n) (h : Step s e t) (he : e.kind = .callback) :
    t.2.pending n < s.2.pending n ∨
      t.2.pending n = s.2.pending n ∧ t.2.remaining n < s.2.remaining n := by
  cases h with
  | signOut | signIn | write | noCity | openCity | didSelectSpot | openFavorites => cases he
  | @didGetDocuments ok hlisting =>
    refine .inr ⟨rfl, ?_⟩
    cases ok with
    | true =>
      simp [Tabs.remaining, SearchViewController.didGetDocuments, hlisting]
      omega
    | false => simp [Tabs.remaining, SearchViewController.didGetDocuments, hlisting]
  | reloadData hreload =>
    refine .inr ⟨rfl, ?_⟩
    simp only [SearchViewController.reloadData] at hreload
    split_ifs at hreload with hzero
    obtain rfl := Option.some.inj hreload
    simp only [Tabs.remaining]
    omega
  | @city page e loading r hloading hstep =>
    have hsum := sum_range_update (hs.cities _ _ hloading) hloading CityPage.Loading.remaining r
    have hlt := CityPage.remaining_of_step hstep
    change r.remaining < loading.remaining at hlt
    refine .inr ⟨rfl, ?_⟩
    simp only [Tabs.remaining, Tabs.setCityLoading, FavoriteButton.Device.remaining]
    omega
  | @favorites page e loading r hloading hstep =>
    have hpending := sum_range_update (hs.favorites _ _ hloading) hloading
      FavoritesPage.Loading.pending r
    have hsum := sum_range_update (hs.favorites _ _ hloading) hloading
      FavoritesPage.Loading.remaining r
    have hrank := FavoritesPage.remaining_of_step hstep
    change r.pending < loading.pending ∨
      r.pending = loading.pending ∧ r.remaining < loading.remaining at hrank
    simp only [Tabs.pending, Tabs.remaining, Tabs.setFavoritesLoading,
      FavoriteButton.Device.remaining]
    omega
  | @device e db d hstep =>
    have hlt : d.remaining < s.2.device.remaining := FavoriteButton.remaining_of_step hstep he
    refine .inr ⟨rfl, ?_⟩
    simp only [Tabs.remaining]
    omega

theorem atRest_iff {tabs : Tabs} (hs : tabs.Ready n) (db : Firestore) :
    (∀ e : Event, e.kind = .callback → step (db, tabs) e = none) ↔ tabs.AtRest := by
  constructor
  · intro h
    refine ⟨?_, ?_, ?_, fun page loading hloading => ?_, fun page loading hloading => ?_⟩
    · simpa [step] using h (.didGetDocuments false) rfl
    · simpa [step, SearchViewController.reloadData] using h .reloadData rfl
    · refine (FavoriteButton.idle_iff hs.configured db).mp fun e he => ?_
      simpa [step] using h (.device e) he
    · have hrest : CityPage.Loading.AtRest { loading with
          page := tabs.pages.spotsViewController page, hud := tabs.device.hud } :=
        CityPage.atRest_iff.mp fun e => by
          simpa [step, Tabs.cityLoading, hloading] using h (.city page e) rfl
      exact ⟨hrest.answered, hrest.notified⟩
    · have hdone : FavoritesPage.Loading.Done { loading with
          page := tabs.pages.favoriteSpotsViewController page, hud := tabs.device.hud } :=
        FavoritesPage.done_iff.mp fun e => by
          simpa [step, Tabs.favoritesLoading, hloading] using h (.favorites page e) rfl
      exact hdone
  · intro h e he
    cases e with
    | didSelectCity | openFavorites | signOut | signIn | write | didSelectSpot => cases he
    | didGetDocuments ok => simp [step, h.listing]
    | reloadData => simp [step, SearchViewController.reloadData, h.reloads]
    | device e => simp [step, (FavoriteButton.idle_iff hs.configured db).mpr h.taps e he]
    | city page e =>
      cases hloading : tabs.cityLoads page with
      | none => simp [step, Tabs.cityLoading, hloading]
      | some loading =>
        have hrest : CityPage.Loading.AtRest { loading with
            page := tabs.pages.spotsViewController page, hud := tabs.device.hud } :=
          ⟨(h.cities page loading hloading).answered, (h.cities page loading hloading).notified⟩
        simp [step, Tabs.cityLoading, hloading, CityPage.atRest_iff.mpr hrest e]
    | favorites page e =>
      cases hloading : tabs.favoritesLoads page with
      | none => simp [step, Tabs.favoritesLoading, hloading]
      | some loading =>
        have hdone : FavoritesPage.Loading.Done { loading with
            page := tabs.pages.favoriteSpotsViewController page, hud := tabs.device.hud } :=
          h.favorites page loading hloading
        simp [step, Tabs.favoritesLoading, hloading, FavoritesPage.done_iff.mpr hdone e]

end

end Screens

namespace Client

def Event.kind : Event → EventKind
  | .stepOne _ | .stepTwo _ _ => .neither
  | .loginButtonDidTap _ _ _ | .didFinishPickingMedia _ => .start
  | .didSignIn _ _ | .didPutData _ _ | .didDownloadURL _ _ | .updateData _ _ => .callback
  | .registration e => e.kind
  | .profile e => e.kind
  | .tabs e => e.kind

def UploadStage.remaining : UploadStage → ℕ
  | .putData => 3
  | .downloadURL => 2
  | .updateData _ => 1
  | .finished => 0

namespace App

/-- A login may be followed by a call of `setupData`. -/
def remaining (n : ℕ) (s : App) : ℕ :=
  (s.logins.map fun login => 4 * login.toList.length).sum +
    (s.uploads.map fun upload => upload.stage.remaining).sum +
    s.profile.remaining + s.registration.remaining + s.tabs.remaining n

/-- The account fetches of the pages come first: each may start any number of others. -/
def rank (n : ℕ) (s : App) : ℕ ×ₗ ℕ := toLex (s.tabs.pending n, s.remaining n)

/-- Nothing that has been started waits for an answer or a callback. -/
structure AtRest (s : App) : Prop where
  logins : ∀ login ∈ s.logins, login = none
  uploads : ∀ upload ∈ s.uploads, upload.stage = .finished
  profile : s.profile.AtRest
  registration : s.registration.idle = true
  tabs : s.tabs.AtRest

end App

section
variable {count : String → ℕ} {s t : Firestore × App} {e : Event} {n : ℕ}

theorem remaining_setUpload {s : App} {i : ℕ} {upload : Upload} (h : s.uploads[i]? = some upload)
    {stage : UploadStage} (hlt : stage.remaining < upload.stage.remaining) :
    (s.setUpload i stage).remaining n < s.remaining n := by
  have hsum : ((s.setUpload i stage).uploads.map fun upload => upload.stage.remaining).sum <
      (s.uploads.map fun upload => upload.stage.remaining).sum := sum_map_modify_lt h hlt
  simp only [App.remaining, App.setUpload] at hsum ⊢
  omega

/-- The tabs are left as they are but for the account and the indicator. -/
theorem remaining_setSession (s : App) (profile : Profile.Session) :
    (s.setSession profile).remaining n + s.profile.remaining =
      s.remaining n + profile.remaining := by
  simp only [App.remaining, App.setSession, App.setAuth, Screens.Tabs.remaining,
    FavoriteButton.Device.remaining]
  omega

theorem remaining_setFlow (s : App) (flow : Registration.Flow) (writes : List Write) :
    ((s.setFlow flow).log writes).remaining n + s.registration.remaining =
      s.remaining n + flow.remaining := by
  simp only [App.remaining, App.setFlow, App.setAuth, App.log, Screens.Tabs.remaining,
    FavoriteButton.Device.remaining]
  omega

theorem remaining_didSignIn (s : App) (login : Login) (uid : String) :
    (s.didSignIn login uid).remaining n ≤ s.remaining n + 3 := by
  have hsum := remaining_setSession (n := n) s
    (Profile.signIn s.session uid login.knowsProfile)
  have hle : (Profile.signIn s.session uid login.knowsProfile).remaining ≤
      s.profile.remaining + 3 := by
    cases login.knowsProfile <;>
      simp [Profile.signIn, Profile.setupData, Profile.Session.remaining,
        Profile.Stage.remaining, App.session]
  simp only [App.didSignIn]
  omega

theorem remaining_set {logins : List (Option Login)} {i : ℕ} {login : Login}
    (h : logins[i]?.join = some login) :
    ((logins.set i none).map fun login => 4 * login.toList.length).sum + 4 =
      (logins.map fun login => 4 * login.toList.length).sum := by
  rw [List.set_eq_modify]
  exact sum_map_modify (Option.join_eq_some_iff.mp h) (fun login => 4 * login.toList.length)
    fun _ => none

theorem ready_of_step (hs : s.2.tabs.Ready n) (h : step count s e = some t) :
    ∃ m, t.2.tabs.Ready m ∧ (e.kind ≠ .start → m = n) := by
  cases step_cases h with
  | tabs he hstep => exact Screens.ready_of_step hs hstep
  | invalidEmail | stepOne | shortPassword | stepTwo | loginButtonDidTap | notSignedIn
  | nothingPicked | didFinishPickingMedia | didPutData | didDownloadURL | noURL | updateData
  | registration | didSignIn | profile =>
    exact ⟨n, ⟨hs.cities, hs.favorites, hs.configured⟩, fun _ => rfl⟩

theorem rank_of_neither (h : step count s e = some t) (he : e.kind = .neither) :
    t.2.rank n = s.2.rank n := by
  cases step_cases h with
  | invalidEmail | stepOne | shortPassword | stepTwo => rfl
  | registration hstep => cases hstep <;> cases he
  | profile hprofile hstep =>
    cases hstep with
    | @signOut ok => cases ok <;> rfl
    | write => cases hprofile
    | setupData | signIn | getDocument | didGetDocument | didSetImage => cases he
  | @tabs e r htabs hstep =>
    obtain ⟨hpending, hremaining⟩ := Screens.remaining_of_neither (n := n) hstep he
    simp only at hpending hremaining
    simp only [App.rank, App.remaining, App.log, hpending, hremaining]
  | loginButtonDidTap | notSignedIn | didSignIn | nothingPicked | didFinishPickingMedia
  | didPutData | didDownloadURL | noURL | updateData => cases he

theorem rank_of_callback (hs : s.2.tabs.Ready n) (h : step count s e = some t)
    (he : e.kind = .callback) : t.2.rank n < s.2.rank n := by
  have hsame : t.2.tabs.pending n = s.2.tabs.pending n → t.2.remaining n < s.2.remaining n →
      t.2.rank n < s.2.rank n := fun hpending hlt =>
    Prod.Lex.toLex_lt_toLex.mpr (.inr ⟨hpending, hlt⟩)
  cases step_cases h with
  | invalidEmail | stepOne | shortPassword | stepTwo | loginButtonDidTap | nothingPicked
  | didFinishPickingMedia => cases he
  | @registration e r hstep =>
    have hlt : r.2.remaining < s.2.registration.remaining :=
      Registration.remaining_of_step hstep he
    have hsum := remaining_setFlow (n := n) s.2 r.2 (issuedByRegistration r.2 e)
    exact hsame rfl (by simp only; omega)
  | @notSignedIn i =>
    obtain ⟨login, hlogin, -⟩ := Option.map_eq_some_iff.mp h
    have hsum := remaining_set hlogin
    refine hsame rfl ?_
    simp only [App.remaining]
    omega
  | @didSignIn i login uid hlogin =>
    have hsum := remaining_set hlogin
    refine hsame rfl ((remaining_didSignIn _ login uid).trans_lt ?_)
    simp only [App.remaining]
    omega
  | @profile e r hprofile hstep =>
    have hlt : r.2.remaining < s.2.profile.remaining := Profile.remaining_of_step hstep he
    have hsum := remaining_setSession (n := n) s.2 r.2
    exact hsame rfl (by simp only; omega)
  | didPutData hupload hstage =>
    refine hsame rfl (remaining_setUpload hupload ?_)
    rw [hstage]
    split_ifs <;> simp [UploadStage.remaining]
  | didDownloadURL hupload hstage | noURL hupload hstage | updateData hupload hstage =>
    exact hsame rfl (remaining_setUpload hupload (by simp [hstage, UploadStage.remaining]))
  | tabs htabs hstep =>
    have hrank := Screens.remaining_of_step hs hstep he
    refine Prod.Lex.toLex_lt_toLex.mpr ?_
    simp only [App.remaining, App.log] at hrank ⊢
    omega

/-- Whatever an app waits for can happen. -/
theorem atRest_iff {app : App} (hs : app.tabs.Ready n) (db : Firestore) :
    (∀ e : Event, e.kind = .callback → step count (db, app) e = none) ↔ app.AtRest := by
  constructor
  · intro h
    refine ⟨fun login hlogin => ?_, fun upload hupload => ?_, ?_, ?_, ?_⟩
    · obtain ⟨i, hi⟩ := List.getElem?_of_mem hlogin
      have hnone := h (.didSignIn i none) rfl
      simp only [step, hi, Option.map_eq_none_iff] at hnone
      exact hnone
    · obtain ⟨i, hi⟩ := List.getElem?_of_mem hupload
      cases hstage : upload.stage with
      | finished => rfl
      | putData =>
        have hnone := h (.didPutData i false) rfl
        simp [step, hi, advance, hstage] at hnone
      | downloadURL =>
        have hnone := h (.didDownloadURL i none) rfl
        simp [step, hi, advance, hstage] at hnone
      | updateData dictionary =>
        have hnone := h (.updateData i false) rfl
        simp [step, hi, advance, hstage] at hnone
    · have hrest : app.session.AtRest := Profile.atRest_iff.mp fun e he => by
        have hprofile : ofProfile e = true := by cases e <;> first | rfl | cases he
        simpa [step, hprofile] using h (.profile e) he
      exact hrest
    · have hidle : app.flow.idle = true := Registration.idle_iff.mp fun e he => by
        simpa [step] using h (.registration e) he
      exact hidle
    · refine (Screens.atRest_iff hs db).mp fun e he => ?_
      have htabs : ofTabs e = true := by cases e <;> first | rfl | cases he
      simpa [step, htabs] using h (.tabs e) he
  · intro h e he
    cases e with
    | stepOne | stepTwo | loginButtonDidTap | didFinishPickingMedia => cases he
    | didSignIn i uid =>
      have hjoin : app.logins[i]?.join = none := by
        cases hi : app.logins[i]? with
        | none => rfl
        | some login => exact h.logins login (List.mem_of_getElem? hi)
      simp [step, hjoin]
    | didPutData i ok | updateData i ok =>
      cases hi : app.uploads[i]? with
      | none => simp [step, hi]
      | some upload =>
        have hstage := h.uploads upload (List.mem_of_getElem? hi)
        simp [step, hi, advance, hstage]
    | didDownloadURL i url =>
      cases hi : app.uploads[i]? with
      | none => simp [step, hi]
      | some upload =>
        have hstage := h.uploads upload (List.mem_of_getElem? hi)
        cases url <;> simp [step, hi, advance, hstage]
    | registration e =>
      have hidle : app.flow.idle = true := h.registration
      simp [step, Registration.idle_iff.mpr hidle e he]
    | profile e =>
      have hrest : app.session.AtRest := h.profile
      simp [step, Profile.atRest_iff.mpr hrest e he]
    | tabs e => simp [step, (Screens.atRest_iff hs db).mpr h.tabs e he]

end

end Client

/-! Rebuilds and apps. -/

def Stage.remaining : Stage → ℕ
  | .removeSpots => 6
  | .deletingSpots => 5
  | .removeCities => 4
  | .deletingCities => 3
  | .getTaiwanSpots => 2
  | .settingCities => 1
  | .completed | .returned | .trapped => 0

/-- A listing may find any number of documents, and leads to the next stage. -/
def Rebuild.rank (p : Rebuild) : ℕ ×ₗ ℕ := toLex (p.stage.remaining, p.inFlight.length)

/-- A loop in which a path raises leaves nothing to do. -/
theorem Rebuild.remaining_issue (p : Rebuild) (stage : Stage) (l : Loop) :
    (p.issue stage l).stage.remaining ≤ stage.remaining := by
  simp only [Rebuild.issue]
  split_ifs
  · exact Nat.zero_le _
  · exact le_rfl

theorem Rebuild.rank_of_step {o : Outcomes} {s t : Firestore × Rebuild} {e : Event}
    (h : step o s e = some t) : t.2.rank < s.2.rank := by
  refine Prod.Lex.toLex_lt_toLex.mpr ?_
  rcases step_cases h with ⟨-, hst, -, rfl⟩ | ⟨-, hst, -, rfl⟩ | ⟨-, hst, -, rfl⟩ |
      ⟨-, hst, -, rfl⟩ | ⟨-, hst, h⟩ | ⟨label, r, rest, -, he, rfl⟩ | ⟨-, -, h⟩
  · exact .inl ((s.2.remaining_issue _ _).trans_lt (by simp [hst, Stage.remaining]))
  · exact .inl (by simp [Rebuild.goto, hst, Stage.remaining])
  · exact .inl ((s.2.remaining_issue _ _).trans_lt (by simp [hst, Stage.remaining]))
  · exact .inl (by simp [Rebuild.goto, hst, Stage.remaining])
  · rcases h with ⟨spots, hd, rfl⟩ | ⟨-, rfl⟩ | ⟨-, rfl⟩
    · exact .inl ((s.2.remaining_issue _ _).trans_lt (by simp [hst, Stage.remaining]))
    · exact .inl (by simp [Rebuild.goto, hst, Stage.remaining])
    · exact .inl (by simp [Rebuild.goto, hst, Stage.remaining])
  · obtain ⟨pre, post, hin, rfl, -, -⟩ := extract_eq_some he
    exact .inr ⟨rfl, by simp [hin]⟩
  · rcases h with ⟨hst, rfl⟩ | ⟨hst, rfl⟩ | ⟨hst, rfl⟩ <;>
      exact .inl (by simp [Rebuild.goto, hst, Stage.remaining])

section
variable {ι κ : Type*} {o : ι → Outcomes} {characters : String → ℕ}

theorem rebuild_descends : Descends (rebuildProcess o) (fun _ => True) (fun _ => True)
    (fun _ => Rebuild.Coherent) (fun _ => Rebuild.rank) := by
  intro i db p e t hp _ h
  have hlt : t.2.rank < p.rank := Rebuild.rank_of_step h
  exact ⟨step_coherent hp h, hlt.le, fun _ => hlt⟩

theorem app_descends (n : κ → ℕ) :
    Descends (appProcess characters) (fun e => e.kind ≠ .start) (fun e => e.kind = .callback)
      (fun k app => app.tabs.Ready (n k)) (fun k => Client.App.rank (n k)) := by
  intro k db app e t hready he h
  simp only [appProcess] at h
  split_ifs at h
  obtain ⟨m, hm, hsame⟩ := Client.ready_of_step hready h
  obtain rfl := hsame he
  refine ⟨hm, ?_, fun hcallback => Client.rank_of_callback hready h hcallback⟩
  cases hkind : e.kind with
  | start => exact absurd hkind he
  | callback => exact (Client.rank_of_callback hready h hkind).le
  | neither => exact (Client.rank_of_neither h hkind).le

theorem app_ready {k : κ} {db : Firestore} {app : Client.App} {e : Client.Event}
    {t : Firestore × Client.App} (happ : ∃ n, app.tabs.Ready n)
    (h : appProcess characters k db app e = some t) : ∃ n, t.2.tabs.Ready n := by
  obtain ⟨n, hn⟩ := happ
  simp only [appProcess] at h
  split_ifs at h
  obtain ⟨m, hm, -⟩ := Client.ready_of_step hn h
  exact ⟨m, hm⟩

/-- What the system waits for: every event of a rebuild, and the callbacks of an app. -/
def Awaited : (ι × Event) ⊕ (κ × Client.Event) → Prop :=
  either (fun _ => True) fun e => e.kind = .callback

/-- Nothing is started by the event. -/
def StartsNothing : (ι × Event) ⊕ (κ × Client.Event) → Prop :=
  either (fun _ => True) fun e => e.kind ≠ .start

variable [DecidableEq ι] [DecidableEq κ] {s t : Groups Firestore ι Rebuild κ Client.App}
  {es : List ((ι × Event) ⊕ (κ × Client.Event))}

theorem atRest_iff_awaited (hrebuilds : ∀ i, (s.first i).Coherent) {n : κ → ℕ}
    (happs : ∀ k, (s.second k).tabs.Ready (n k)) :
    (∀ e, Awaited e → beside (rebuildProcess o) (appProcess characters) s e = none) ↔
      (∀ i, (s.first i).Finished) ∧ ∀ k, (s.second k).AtRest := by
  refine beside_eq_none.trans (and_congr (forall_congr' fun i => ?_) (forall_congr' fun k => ?_))
  · constructor
    · intro h
      by_contra hfinished
      obtain ⟨e, he⟩ := (hrebuilds i).exists_step hfinished (o i) s.store
      rw [show step (o i) (s.store, s.first i) e = none from h e trivial] at he
      cases he
    · exact fun h e _ => h.step_eq_none e
  · have hrest : (∀ e : Client.Event, e.kind = .callback →
        Client.step characters (s.store, s.second k) e = none) ↔ (s.second k).AtRest :=
      Client.atRest_iff (happs k) s.store
    rw [← hrest]
    refine forall_congr' fun e => imp_congr_right fun he => ?_
    have hofApp : ofApp e = true := by
      unfold ofApp
      split
      · cases he
      · rfl
    simp [appProcess, hofApp]

/-- However many rebuilds overlap with however many apps, and whatever fails: once nothing is
started any more, only finitely many answers and callbacks follow; nothing waits for one only
when all rebuilds have finished and all apps are at rest; and every run goes on by answers and
callbacks until this is so. -/
theorem system_comes_to_rest [Finite ι] [Finite κ] {user : ι → User} {count : ι → ℤ}
    {currentUser : κ → Option String}
    (hp : ∀ i, apiButtonDidTap (user i) (count i) = some (s.first i))
    (happs : ∀ k, s.second k = Client.launch (currentUser k))
    (hr : run (beside (rebuildProcess o) (appProcess characters)) s es = some t) :
    (∀ (state : ℕ → Groups Firestore ι Rebuild κ Client.App)
      (event : ℕ → (ι × Event) ⊕ (κ × Client.Event)), state 0 = t →
      (∀ n, StartsNothing (event n) ∧
        beside (rebuildProcess o) (appProcess characters) (state n) (event n) =
          some (state (n + 1))) →
      ∃ N, ∀ n, N ≤ n → ¬ Awaited (event n)) ∧
    ((∀ e, Awaited e → beside (rebuildProcess o) (appProcess characters) t e = none) ↔
      (∀ i, (t.first i).Finished) ∧ ∀ k, (t.second k).AtRest) ∧
    ∃ fs u, (∀ e ∈ fs, Awaited e) ∧
      run (beside (rebuildProcess o) (appProcess characters)) s (es ++ fs) = some u ∧
      (∀ i, (u.first i).Finished) ∧ ∀ k, (u.second k).AtRest := by
  have hstart : s.Sound (fun _ => True) (fun _ => Rebuild.Coherent)
      (fun _ app => ∃ n, app.tabs.Ready n) := by
    refine ⟨trivial, fun i => apiButtonDidTap_coherent (hp i), fun k => ⟨0, ?_⟩⟩
    rw [happs k]
    exact ⟨fun _ _ h => (nomatch h), fun _ _ h => (nomatch h), fun _ h => (nomatch h)⟩
  have hsound : t.Sound (fun _ => True) (fun _ => Rebuild.Coherent)
      (fun _ app => ∃ n, app.tabs.Ready n) := by
    refine sound_of_run ?_ ?_ hstart hr
    · exact fun i db p e t _ hp h => ⟨trivial, step_coherent hp h⟩
    · exact fun k db app e t _ happ h => ⟨trivial, app_ready happ h⟩
  choose n hn using hsound.second
  have happ : Descends (appProcess characters) _ _ _ _ := app_descends n
  have hdescent := descent_beside (rebuild_descends (o := o)) happ (fun _ _ => trivial)
    (fun e he => by rw [he]; exact EventKind.noConfusion)
  have ht : t.Sound (fun _ => True) (fun _ => Rebuild.Coherent)
    (fun k app => app.tabs.Ready (n k)) := ⟨trivial, hsound.first, hn⟩
  refine ⟨fun state event h0 h => ?_, atRest_iff_awaited hsound.first hn, ?_⟩
  · exact hdescent.callbacks_cease (h0 ▸ ht) (fun n => (h n).1) fun n => (h n).2
  · obtain ⟨fs, u, hfs, hu, husound, hrest⟩ := hdescent.exists_run_to_rest ht
    refine ⟨fs, u, hfs, ?_, (atRest_iff_awaited husound.first husound.second).mp hrest⟩
    rw [run_append, hr, Option.bind_some, hu]

end

/-- A registration among the deletions of a rebuild, and how both end. -/
theorem system_comes_to_rest_sample :
    ∃ fs u, run (beside (rebuildProcess fun _ : Unit => sampleOutcomes [])
        (appProcess (κ := Unit) String.length))
      ⟨sampleDatabase "a" "臺東縣", fun _ => ⟨1, .removeSpots, ⟨0, 0⟩, []⟩,
        fun _ => Client.launch none⟩ (sampleActivity ++ fs) = some u ∧
      (∀ i, (u.first i).Finished) ∧ ∀ k, (u.second k).AtRest := by
  obtain ⟨-, -, fs, u, -, hu, hrest⟩ := @system_comes_to_rest Unit Unit
    (fun _ => sampleOutcomes []) String.length _ _
    ⟨sampleDatabase "a" "臺東縣", fun _ => ⟨1, .removeSpots, ⟨0, 0⟩, []⟩,
      fun _ => Client.launch none⟩ _ sampleActivity _ _ (fun _ => sampleAdmin) (fun _ => 1)
    (fun _ => none) (fun _ => rfl) (fun _ => rfl) rfl
  exact ⟨fs, u, hu, hrest⟩

end TaiwanSpots
