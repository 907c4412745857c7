import TaiwanSpots.FavoriteHearts
import TaiwanSpots.CityPage
import TaiwanSpots.FavoritesPage
import TaiwanSpots.ProfileSession
import TaiwanSpots.Registration

/-!
# Which flows hide the loading indicator

Six flows show the indicator. Each of them hides it on some of its paths only: a
callback returns on an error before it leaves its group, an optional is bound
without an else branch, or the block that hides belongs to a loop that runs over
nothing. Each flow is run on its own, to its end.
-/
namespace TaiwanSpots
open Runs

/-- Only indicators that have been shown are dismissed. -/
def HUD.WellFormed (h : HUD) : Prop := ∀ n ∈ h.dismissed, n < h.shown

/-- The indicator that is shown between the two states, if one is, is dismissed. -/
def Hides (before after : HUD) : Prop :=
  before.shown < after.shown → before.shown ∈ after.dismissed

/-- Indicator `n` is the current one; it is hidden under the condition. -/
structure HUD.Shows (h : HUD) (n : ℕ) (hidden : Prop) : Prop where
  hud : h.hud = some n
  shown : h.shown = n + 1
  dismissed : n ∈ h.dismissed ↔ hidden

theorem HUD.WellFormed.showLoading {h : HUD} (hwf : h.WellFormed) :
    h.showLoading.Shows h.shown False := by
  refine ⟨rfl, rfl, iff_of_false (fun hmem => ?_) id⟩
  have hlt := hwf _ hmem
  omega

theorem HUD.Shows.hideLoading {h : HUD} {n : ℕ} {P : Prop} (hs : h.Shows n P) :
    h.hideLoading.Shows n True := by
  simp only [HUD.hideLoading, hs.hud]
  exact ⟨rfl, hs.shown, by simp⟩

theorem HUD.Shows.congr {h : HUD} {n : ℕ} {P Q : Prop} (hs : h.Shows n P) (hPQ : P ↔ Q) :
    h.Shows n Q :=
  ⟨hs.hud, hs.shown, hs.dismissed.trans hPQ⟩

theorem HUD.Shows.hides_iff {before after : HUD} {P : Prop} (hs : after.Shows before.shown P) :
    Hides before after ↔ P := by
  rw [← hs.dismissed, Hides, hs.shown]
  simp

end TaiwanSpots

namespace TaiwanSpots.CityPage
open Runs

/-- The fetches that are on their way. -/
def Loading.pending (s : Loading) : ℕ :=
  (s.spotFetches.filterMap id).length + s.userFetch.toList.length

/-- All callbacks have run, and the block of the group if it can. -/
def Loading.Done (s : Loading) : Prop :=
  s.Answered ∧ (s.group.left = s.group.entered → s.notified = true)

/-- The group is left for every fetch that has succeeded, and for no other. -/
structure Counted (n : ℕ) (es : List Event) (s : Loading) : Prop where
  hud : s.hud.Shows n (s.notified = true)
  counts : s.group.left + s.pending + es.countP (fun e => !e.succeeds) = s.group.entered
  notified : s.notified = true → s.group.left = s.group.entered

/-- A fetch that calls back is no longer pending. -/
theorem Loading.pending_set {s : Loading} {i : ℕ} {ref : DocumentReference}
    (h : s.spotFetches[i]? = some (some ref)) :
    s.pending = { s with spotFetches := s.spotFetches.set i none }.pending + 1 := by
  have hmoves := (filterMap_set_perm (f := fun fetch : Option DocumentReference => fetch)
    (b := none) h rfl).length_eq
  simp only [List.length_append, Option.toList_some, List.length_singleton] at hmoves
  show (s.spotFetches.filterMap fun fetch => fetch).length + s.userFetch.toList.length =
    ((s.spotFetches.set i none).filterMap fun fetch => fetch).length +
      s.userFetch.toList.length + 1
  omega

theorem Loading.pending_user {s : Loading} {uid : String} (h : s.userFetch = some uid) :
    s.pending = { s with userFetch := none }.pending + 1 := by
  simp [Loading.pending, h]

/-- Nothing that is counted changes any more once the block has run. -/
theorem Counted.callback {n : ℕ} {es : List Event} {s t : Loading} {e : Event}
    (h : Counted n es s) (hpending : s.pending = t.pending + 1) (hhud : t.hud = s.hud)
    (hnotified : t.notified = s.notified) (hentered : t.group.entered = s.group.entered)
    (hleft : t.group.left = s.group.left + if e.succeeds then 1 else 0) :
    Counted n (es ++ [e]) t := by
  have hcounts := h.counts
  refine ⟨by rw [hhud, hnotified]; exact h.hud, ?_, fun hdone => ?_⟩
  · rw [List.countP_append, hentered, hleft]
    cases he : e.succeeds <;> simp [he] <;> omega
  · have hgroup := h.notified (hnotified ▸ hdone)
    omega

theorem step_counted {db : Firestore} {visible : ℕ → Bool} {n : ℕ} {es : List Event}
    {s t : Loading} {e : Event} (hs : Counted n es s) (h : step db visible s e = some t) :
    Counted n (es ++ [e]) t := by
  cases step_cases h with
  | lost hfetch => exact hs.callback (Loading.pending_set hfetch) rfl rfl rfl rfl
  | missing hfetch hdoc => exact hs.callback (Loading.pending_set hfetch) rfl rfl rfl rfl
  | arrived hfetch hdoc hspot => exact hs.callback (Loading.pending_set hfetch) rfl rfl rfl rfl
  | userLost huser => exact hs.callback (Loading.pending_user huser) rfl rfl rfl rfl
  | unlisted huser hnone => exact hs.callback (Loading.pending_user huser) rfl rfl rfl rfl
  | listed huser => exact hs.callback (Loading.pending_user huser) rfl rfl rfl rfl
  | notify hgroup hnotified =>
    refine ⟨hs.hud.hideLoading.congr (by simp), ?_, fun _ => hgroup⟩
    have hcounts := hs.counts
    rw [List.countP_append]
    simpa [Loading.pending, Event.succeeds] using hcounts

/-- The page of a city hides the indicator exactly when no fetch fails. -/
theorem hides_iff {db : Firestore} {visible : ℕ → Bool} {page : SpotsViewController} {hud : HUD}
    {currentUser : Option String} {es : List Event} {s t : Loading} (hwf : hud.WellFormed)
    (hopen : getSpots page hud currentUser = some s) (hr : run (step db visible) s es = some t)
    (hdone : t.Done) : Hides hud t.hud ↔ ∀ e ∈ es, e.succeeds = true := by
  have hstart : Counted hud.shown [] s := by
    obtain ⟨refs, hrefs, rfl⟩ := getSpots_cases hopen
    have hlength : page.spotIds.length = refs.length := by
      simpa using congrArg List.length hrefs
    refine ⟨hwf.showLoading.congr (by simp [opened]), ?_, by simp [opened]⟩
    simp [opened, Loading.pending, List.filterMap_map, hlength]
  have hcounted := invariant_of_prefix (I := Counted hud.shown)
    (fun _ _ _ _ _ hm hstep => step_counted hm hstep) hstart hr
  have hcounts := hcounted.counts
  have hnone : t.pending = 0 := by
    have hspots : t.spotFetches.filterMap id = [] := by
      rw [List.filterMap_eq_nil_iff]
      exact hdone.1.1
    rw [Loading.pending, hspots, hdone.1.2]
    rfl
  rw [hcounted.hud.hides_iff]
  have hfails : es.countP (fun e => !e.succeeds) = 0 ↔ ∀ e ∈ es, e.succeeds = true := by
    rw [List.countP_eq_zero]
    simp
  rw [← hfails]
  constructor
  · intro hnotified
    have hgroup := hcounted.notified hnotified
    omega
  · intro hzero
    exact hdone.2 (by omega)

end TaiwanSpots.CityPage

namespace TaiwanSpots.FavoritesPage
open Runs FavoriteButton

/-- The blocks that have run are those that have hidden the indicator, and the loop
runs over the ids that the reply has listed. -/
structure Counted (db : Firestore) (currentUser : Option String) (n : ℕ) (es : List Event)
    (s : Loading) : Prop where
  hud : s.hud.Shows n (.finished ∈ s.fetches)
  loop : (s.userFetch = currentUser ∧ s.fetches = [] ∧ ∀ ok, .didGetUser ok ∉ es) ∨
    ∃ uid ok, currentUser = some uid ∧ s.userFetch = none ∧ .didGetUser ok ∈ es ∧
      (∀ ok', .didGetUser ok' ∈ es → ok' = ok) ∧
      s.fetches.length = if ok then (stored db uid).length else 0

theorem mem_set_of_ne {fetches : List Fetch} {i : ℕ} {a b c : Fetch} (h : fetches[i]? = some b)
    (ha : c ≠ a) (hb : c ≠ b) : c ∈ fetches.set i a ↔ c ∈ fetches := by
  simp only [List.mem_iff_getElem?, List.getElem?_set]
  refine exists_congr fun j => ?_
  by_cases hij : i = j
  · subst hij
    obtain ⟨hlt, -⟩ := List.getElem?_eq_some_iff.mp h
    rw [if_pos rfl, if_pos hlt, h]
    simp [ha.symm, hb.symm]
  · simp [hij]

section
variable {db : Firestore} {currentUser : Option String} {n : ℕ} {es : List Event} {s t : Loading}
  {e : Event}

/-- Once the loop has been entered, neither a callback nor a block changes its length. -/
theorem Counted.loop_set {i : ℕ} {fetch next : Fetch} (h : Counted db currentUser n es s)
    (hfetch : s.fetches[i]? = some fetch) (he : ∀ ok, e ≠ .didGetUser ok)
    (hfetches : t.fetches = s.fetches.set i next) (huser : t.userFetch = s.userFetch) :
    ∃ uid ok, currentUser = some uid ∧ t.userFetch = none ∧ .didGetUser ok ∈ es ++ [e] ∧
      (∀ ok', .didGetUser ok' ∈ es ++ [e] → ok' = ok) ∧
      t.fetches.length = if ok then (stored db uid).length else 0 := by
  rcases h.loop with ⟨-, hnil, -⟩ | ⟨uid, ok, hcurrent, hnone, hmem, hall, hlength⟩
  · simp [hnil] at hfetch
  · refine ⟨uid, ok, hcurrent, huser.trans hnone, List.mem_append_left _ hmem, fun ok' hok' => ?_,
      by rw [hfetches, List.length_set, hlength]⟩
    rcases List.mem_append.mp hok' with hok' | hok'
    · exact hall ok' hok'
    · exact absurd (List.mem_singleton.mp hok').symm (he ok')

theorem Counted.user_lost {uid : String} {ok : Bool} (h : Counted db currentUser n es s)
    (huser : s.userFetch = some uid) : currentUser = some uid ∧ s.fetches = [] ∧
      .didGetUser ok ∈ es ++ [.didGetUser ok] ∧
      ∀ ok', .didGetUser ok' ∈ es ++ [.didGetUser ok] → ok' = ok := by
  rcases h.loop with ⟨hfetch, hnil, hnone⟩ | ⟨_, _, _, hnone, _⟩
  · refine ⟨hfetch.symm.trans huser, hnil, by simp, fun ok' hok' => ?_⟩
    rcases List.mem_append.mp hok' with hok' | hok'
    · exact absurd hok' (hnone ok')
    · exact Event.didGetUser.inj (List.mem_singleton.mp hok')
  · rw [huser] at hnone
    cases hnone

theorem step_counted (hs : Counted db currentUser n es s) (h : step db s e = some t) :
    Counted db currentUser n (es ++ [e]) t := by
  cases step_cases h with
  | @unlisted ok uid huser hnone =>
    obtain ⟨hcurrent, hnil, hmem, hall⟩ := hs.user_lost huser
    refine ⟨hs.hud, .inr ⟨uid, ok, hcurrent, rfl, hmem, hall, ?_⟩⟩
    cases ok with
    | false => simp [hnil]
    | true =>
      simp [hnil, stored_of_unlisted hnone]
  | @listed uid data ids refs huser hdoc hids hrefs =>
    obtain ⟨hcurrent, hnil, hmem, hall⟩ := hs.user_lost huser
    have hlength : ids.length = refs.length := by simpa using congrArg List.length hrefs
    refine ⟨hs.hud.congr (by simp), .inr ⟨uid, true, hcurrent, rfl, hmem, hall, ?_⟩⟩
    simp [hnil, stored, hdoc, favorites, hids, hlength]
  | @missing i ok id hfetch hnone =>
    refine ⟨hs.hud.congr ?_, .inr (hs.loop_set hfetch (by simp) rfl rfl)⟩
    exact (mem_set_of_ne hfetch (by simp) (by simp)).symm
  | @arrived i id dict spot hfetch hdoc hspot =>
    refine ⟨hs.hud.congr ?_, .inr (hs.loop_set hfetch (by simp) rfl rfl)⟩
    exact (mem_set_of_ne hfetch (by simp) (by simp)).symm
  | @notify i hfetch =>
    refine ⟨hs.hud.hideLoading.congr (iff_of_true trivial ?_),
      .inr (hs.loop_set hfetch (by simp) rfl rfl)⟩
    obtain ⟨hlt, -⟩ := List.getElem?_eq_some_iff.mp hfetch
    exact List.mem_of_getElem? (i := i) (by simp [notify, hlt])

/-- The page of the favourites hides the indicator exactly when somebody is signed in
and the document of the account arrives and lists an id. -/
theorem hides_iff {hud : HUD} (hwf : hud.WellFormed)
    (hr : run (step db) (viewDidLoad hud currentUser) es = some t) (hdone : t.Done) :
    Hides hud t.hud ↔
      ∃ uid, currentUser = some uid ∧ .didGetUser true ∈ es ∧ stored db uid ≠ [] := by
  have hcounted := invariant_of_prefix (I := Counted db currentUser hud.shown)
    (fun _ _ _ _ _ hm hstep => step_counted hm hstep)
    ⟨hwf.showLoading.congr (by simp [viewDidLoad]), .inl ⟨rfl, rfl, by simp⟩⟩ hr
  have hfinished : .finished ∈ t.fetches ↔ t.fetches ≠ [] := by
    constructor
    · intro hmem hnil
      simp [hnil] at hmem
    · intro hne
      obtain ⟨fetch, hfetch⟩ := List.exists_mem_of_ne_nil _ hne
      exact hdone.2 fetch hfetch ▸ hfetch
  rw [hcounted.hud.hides_iff, hfinished]
  rcases hcounted.loop with ⟨hcurrent, hnil, hnone⟩ | ⟨uid, ok, hcurrent, -, hmem, hall, hlength⟩
  · refine iff_of_false (by simp [hnil]) ?_
    rintro ⟨uid, -, hmem, -⟩
    exact hnone true hmem
  · rw [ne_eq, ← List.length_eq_zero_iff, hlength, hcurrent]
    cases ok with
    | true => simp [hmem]
    | false =>
      refine iff_of_false (by simp) ?_
      rintro ⟨_, -, htrue, -⟩
      cases hall true htrue

end

end TaiwanSpots.FavoritesPage

namespace TaiwanSpots.Profile
open Runs

/-- The answer of the server or a callback of `setupData`. -/
def Event.isReply : Event → Bool
  | .getDocument _ _ | .didGetDocument _ | .didSetImage _ => true
  | _ => false

/-- All calls of `setupData` have run to their ends. -/
def Session.Done (s : Session) : Prop := ∀ setup ∈ s.setups, setup.stage = .finished

/-- The indicator at each stage of the one call of `setupData` that is under way. -/
def Follows (db : Firestore) (uid : String) (n : ℕ) (es : List Event) (hud : HUD) : Stage → Prop
  | .getDocument => hud.Shows n False ∧ ∀ i ok, .getDocument i ok ∉ es
  | .didGetDocument reply => hud.Shows n False ∧ ∃ i ok, .getDocument i ok ∈ es ∧
      (∀ i' ok', .getDocument i' ok' ∈ es → ok' = ok) ∧ reply = db.getDocument (userRef uid) ok
  | .setImage => hud.Shows n False ∧ (∃ i, .getDocument i true ∈ es) ∧
      (db.lookup (userRef uid)).isSome = true
  | .finished => hud.Shows n ((∃ i, .getDocument i true ∈ es) ∧
      (db.lookup (userRef uid)).isSome = true)

/-- One call of `setupData` after others that are finished. -/
def Alone (db : Firestore) (uid : String) (n : ℕ) (es : List Event) (s : Firestore × Session) :
    Prop :=
  s.1 = db ∧ ∃ old stage, s.2.setups = old ++ [⟨uid, stage⟩] ∧
    (∀ setup ∈ old, setup.stage = .finished) ∧ Follows db uid n es s.2.hud stage

section
variable {db : Firestore} {uid : String} {n : ℕ} {es : List Event} {s t : Firestore × Session}
  {e : Event}

theorem Alone.unfinished {i : ℕ} {setup : Setup} (h : Alone db uid n es s)
    (hsetup : s.2.setups[i]? = some setup) (hne : setup.stage ≠ .finished) :
    ∃ old, s.2.setups = old ++ [setup] ∧ i = old.length ∧ setup.uid = uid ∧
      (∀ setup ∈ old, setup.stage = .finished) ∧ Follows db uid n es s.2.hud setup.stage := by
  obtain ⟨-, old, stage, hsetups, hold, hfollows⟩ := h
  rw [hsetups] at hsetup
  rcases getElem?_concat_cases hsetup with hsetup | ⟨hi, rfl⟩
  · exact absurd (hold setup (List.mem_of_getElem? hsetup)) hne
  · exact ⟨old, hsetups, hi, rfl, hold, hfollows⟩

theorem Alone.setStage {old : List Setup} {setup : Setup} {db' : Firestore} {stage : Stage}
    (session : Session) (hdb : db' = db) (hsetups : session.setups = old ++ [setup])
    (huid : setup.uid = uid) (hold : ∀ setup ∈ old, setup.stage = .finished)
    (hfollows : Follows db uid n es session.hud stage) :
    Alone db uid n es (db', session.setStage old.length stage) := by
  refine ⟨hdb, old, stage, ?_, hold, hfollows⟩
  simp only [Session.setStage, hsetups, modify_concat, huid]

theorem step_alone (he : e.isReply = true) (hs : Alone db uid n es s) (h : step s e = some t) :
    Alone db uid n (es ++ [e]) t := by
  cases step_cases h with
  | @getDocument i ok setup hsetup hstage =>
    obtain ⟨old, hsetups, rfl, huid, hold, hfollows⟩ := hs.unfinished hsetup (by simp [hstage])
    rw [hstage] at hfollows
    obtain ⟨hhud, hnone⟩ := hfollows
    refine Alone.setStage s.2 hs.1 hsetups huid hold
      ⟨hhud, old.length, ok, by simp, fun i' ok' hmem => ?_, by rw [huid, hs.1]⟩
    rcases List.mem_append.mp hmem with hmem | hmem
    · exact absurd hmem (hnone i' ok')
    · exact (Event.getDocument.inj (List.mem_singleton.mp hmem)).2
  | @didGetDocument i setup reply hsetup hstage =>
    obtain ⟨old, hsetups, rfl, huid, hold, hfollows⟩ := hs.unfinished hsetup (by simp [hstage])
    rw [hstage] at hfollows
    obtain ⟨hhud, i, ok, hmem, hall, rfl⟩ := hfollows
    have hread : (∃ i, .getDocument i true ∈ es ++ [.didGetDocument old.length]) ↔ ok = true := by
      constructor
      · rintro ⟨i', hi'⟩
        exact (hall i' true (by simpa using hi')).symm
      · rintro rfl
        exact ⟨i, by simp [hmem]⟩
    cases ok with
    | false =>
      exact Alone.setStage s.2 hs.1 hsetups huid hold (hhud.congr (by rw [hread]; simp))
    | true =>
      cases hdoc : db.lookup (userRef uid) with
      | none =>
        simp only [Firestore.getDocument, hdoc, if_true]
        exact Alone.setStage s.2 hs.1 hsetups huid hold (hhud.congr (by simp [hdoc]))
      | some dictionary =>
        simp only [Firestore.getDocument, hdoc, if_true, didGetDocument]
        split
        · exact Alone.setStage { s.2 with user := fillIn s.2.user dictionary } hs.1 hsetups huid
            hold ⟨hhud, hread.mpr rfl, by simp [hdoc]⟩
        · exact Alone.setStage { s.2 with
            user := fillIn s.2.user dictionary
            hud := s.2.hud.hideLoading } hs.1 hsetups huid hold
            (hhud.hideLoading.congr (iff_of_true trivial ⟨hread.mpr rfl, by simp [hdoc]⟩))
  | @didSetImage i setup hsetup hstage =>
    obtain ⟨old, hsetups, rfl, huid, hold, hfollows⟩ := hs.unfinished hsetup (by simp [hstage])
    rw [hstage] at hfollows
    obtain ⟨hhud, ⟨i, hi⟩, hdoc⟩ := hfollows
    exact Alone.setStage { s.2 with hud := s.2.hud.hideLoading } hs.1 hsetups huid hold
      (hhud.hideLoading.congr (iff_of_true trivial ⟨⟨i, by simp [hi]⟩, hdoc⟩))
  | setupData | signOut | signIn | write => cases he

end

/-- With nobody signed in nothing is fetched, and nothing can happen. -/
theorem run_signedOut {db : Firestore} {s : Session} {es : List Event} {t : Firestore × Session}
    (hdone : s.Done) (he : ∀ e ∈ es, e.isReply = true) (hr : run step (db, s) es = some t) :
    t.2.hud = s.hud := by
  have hstuck : ∀ e, e.isReply = true → step (db, s) e = none := by
    intro e he
    cases hstep : step (db, s) e with
    | none => rfl
    | some m =>
      cases step_cases hstep with
      | getDocument hsetup hstage | didGetDocument hsetup hstage | didSetImage hsetup hstage =>
        rw [hdone _ (List.mem_of_getElem? hsetup)] at hstage
        cases hstage
      | setupData | signOut | signIn | write => cases he
  cases es with
  | nil =>
    obtain rfl := Option.some.inj hr
    rfl
  | cons e es =>
    obtain ⟨m, hm, -⟩ := run_cons.mp hr
    rw [hstuck e (he e (by simp))] at hm
    cases hm

/-- `setupData` hides the indicator exactly when somebody is signed in, the read
succeeds and the document exists. -/
theorem hides_iff {db : Firestore} {s : Session} {es : List Event} {t : Firestore × Session}
    (hwf : s.hud.WellFormed) (hidle : s.Done) (he : ∀ e ∈ es, e.isReply = true)
    (hr : run step (db, setupData s) es = some t) (hdone : t.2.Done) :
    Hides s.hud t.2.hud ↔ ∃ uid i, s.currentUser = some uid ∧ .getDocument i true ∈ es ∧
      (db.lookup (userRef uid)).isSome = true := by
  cases huser : s.currentUser with
  | none =>
    have hsame : (setupData s).setups = s.setups := by simp [setupData, huser]
    have hhud := run_signedOut (fun setup hs => hidle setup (hsame ▸ hs)) he hr
    have hshows : t.2.hud.Shows s.hud.shown False := hhud ▸ hwf.showLoading
    rw [hshows.hides_iff]
    simp
  | some uid =>
    have hsetups : (setupData s).setups = s.setups ++ [⟨uid, .getDocument⟩] := by
      simp [setupData, huser]
    have halone := invariant_of_prefix
      (I := fun pre m => (∀ e ∈ pre, Event.isReply e = true) → Alone db uid s.hud.shown pre m)
      (fun pre m e m' _ hm hstep hpre => step_alone (hpre e (by simp))
        (hm fun e' he' => hpre e' (by simp [he'])) hstep)
      (fun _ => ⟨rfl, s.setups, .getDocument, hsetups, hidle, hwf.showLoading, by simp⟩) hr he
    obtain ⟨-, old, stage, hend, -, hfollows⟩ := halone
    obtain rfl : stage = .finished := hdone ⟨uid, stage⟩ (by simp [hend])
    rw [HUD.Shows.hides_iff hfollows]
    simp

end TaiwanSpots.Profile

namespace TaiwanSpots.FavoriteButton
open Runs

/-- What makes a removal hide the indicator: on both pages the document must list the
spot, on the page of a city the write must succeed as well. -/
def RemovalHides (ok : Answers) (s : Firestore × Device) (cell : SpotCollectionViewCell) : Prop :=
  ∀ uid, s.2.currentUser = some uid → ok.getDocument = true ∧ cell.spot.id ∈ stored s.1 uid ∧
    ((∃ page, cell.owner = .city page) → ok.updateData = true)

theorem isSome_sends_iff {ok : Answers} {s : Firestore × Device} {cell : SpotCollectionViewCell}
    {uid : String} (huser : s.2.currentUser = some uid) (hsel : cell.isSelected = true) :
    (sends ok s cell).isSome = true ↔ ok.getDocument = true ∧ cell.spot.id ∈ stored s.1 uid := by
  cases hok : ok.getDocument with
  | false => simp [sends, huser, hok]
  | true =>
    cases hdoc : s.1.lookup (userRef uid) with
    | none => simp [sends, huser, hok, hdoc, stored]
    | some dictionary =>
      have hnew := @newFavoriteArray_eq_none false cell.spot.id dictionary
      simp only [sends, huser, hok, hdoc, hsel, stored, Option.bind_some, if_true, Bool.not_true,
        Option.isSome_map, Option.map_some, Option.getD_some, true_and]
      cases hids : newFavoriteArray false cell.spot.id dictionary with
      | none => simpa using hnew.mp hids
      | some ids => simpa [hids] using hnew

/-- A removal hides the indicator exactly when the read and, on the page of a city, the
write succeed and the document lists the spot; without an account it shows none. -/
theorem removal_hides_iff {ok : Answers} {s t : Firestore × Device} {c : ℕ}
    {cell : SpotCollectionViewCell} (hwf : s.2.hud.WellFormed) (hidle : s.2.idle = true)
    (hcell : s.2.pages.cell c = some cell) (hsel : cell.isSelected = true)
    (h : tapAlone ok s c = some t) : Hides s.2.hud t.2.hud ↔ RemovalHides ok s cell := by
  obtain ⟨cell', hcell', -, -, h⟩ := tapAlone_cases hidle h
  obtain rfl : cell = cell' := Option.some.inj (hcell.symm.trans hcell')
  cases huser : s.2.currentUser with
  | none =>
    have hnone : sends ok s cell = none := by simp [sends, huser]
    rcases h with ⟨-, -, -, hhud⟩ | ⟨_, _, hsends, -⟩
    · refine iff_of_true (fun hshown => ?_) (by simp [RemovalHides, huser])
      simp [hhud, hudAfterTap, huser] at hshown
    · rw [hnone] at hsends
      cases hsends
  | some uid =>
    have hshows : (hudAfterTap s.2 cell).Shows s.2.hud.shown False := by
      simpa [hudAfterTap, huser, hsel] using hwf.showLoading
    have hhides : RemovalHides ok s cell ↔ (sends ok s cell).isSome = true ∧
        ((∃ page, cell.owner = .city page) → ok.updateData = true) := by
      rw [isSome_sends_iff huser hsel]
      simp [RemovalHides, huser, and_assoc]
    rw [hhides]
    rcases h with ⟨hsends, -, -, hhud⟩ | ⟨uid', ids, hsends, -, -, hhud⟩
    · rw [hhud, hshows.hides_iff, hsends]
      simp
    · obtain ⟨huser', hread, dictionary, hdoc, -⟩ := sends_eq_some.mp hsends
      rw [hhud, hsends, update_snd, hdoc]
      cases howner : cell.owner with
      | city page =>
        cases hok : ok.updateData with
        | true =>
          have hafter := hshows.hideLoading
          simp only [hudAfterWrite, hsel, howner, hafter.hides_iff, Option.isSome_some,
            Bool.and_self, if_true]
          simp
        | false =>
          simp only [hudAfterWrite, hsel, howner, hshows.hides_iff, Bool.false_and, if_true,
            Bool.false_eq_true, if_false]
          simp
      | favorites page =>
        have hafter := hshows.hideLoading
        simp only [hudAfterWrite, hsel, howner, hafter.hides_iff, if_true]
        simp

end TaiwanSpots.FavoriteButton

namespace TaiwanSpots.Registration
open Runs

/-- The indicator at each stage of the one attempt that is under way. -/
def Attended (n : ℕ) (s : Flow) (a : Attempt) : Prop :=
  match a.stage with
  | .createUser | .didCreateUser false | .setData _ _ | .didSetData _ => s.hud.Shows n False
  | .didCreateUser true => s.hud.Shows n False ∧ s.currentUser.isSome = true
  | .reported _ => s.hud.Shows n True
  | .dropped => False

/-- One attempt after others that are over. -/
def Alone (n : ℕ) (s : Flow) : Prop :=
  ∃ old a, s.attempts = old ++ [a] ∧ (∀ a ∈ old, a.stage.isOver = true) ∧
    (s.stepThrees[a.stepThree]?).isSome = true ∧ Attended n s a

section
variable {n : ℕ} {s t : Firestore × Flow} {e : Event}

theorem Alone.unfinished {i : ℕ} {a : Attempt} (h : Alone n s.2) (ha : s.2.attempts[i]? = some a)
    (hne : a.stage.isOver = false) : ∃ old, s.2.attempts = old ++ [a] ∧ i = old.length ∧
      (∀ a ∈ old, a.stage.isOver = true) ∧ (s.2.stepThrees[a.stepThree]?).isSome = true ∧
      Attended n s.2 a := by
  obtain ⟨old, b, hattempts, hold, hscreen, hattended⟩ := h
  rw [hattempts] at ha
  rcases getElem?_concat_cases ha with ha | ⟨hi, rfl⟩
  · simp [hold a (List.mem_of_getElem? ha)] at hne
  · exact ⟨old, hattempts, hi, hold, hscreen, hattended⟩

theorem Alone.setStage {old : List Attempt} {a : Attempt} {stage : Stage} (f : Flow)
    (hattempts : f.attempts = old ++ [a]) (hold : ∀ a ∈ old, a.stage.isOver = true)
    (hscreen : (f.stepThrees[a.stepThree]?).isSome = true)
    (hattended : Attended n f { a with stage }) : Alone n (f.setStage old.length stage) := by
  refine ⟨old, { a with stage }, ?_, hold, hscreen, hattended⟩
  simp only [Flow.setStage, hattempts, modify_concat]

theorem step_alone (he : ∀ j name, e ≠ .finishButtonDidTap j name) (hs : Alone n s.2)
    (h : step s e = some t) : Alone n t.2 := by
  cases step_cases h with
  | finishButtonDidTap huser => exact absurd rfl (he _ _)
  | @created i uid a ha hstage huid =>
    obtain ⟨old, hattempts, rfl, hold, hscreen, hattended⟩ :=
      hs.unfinished ha (by simp [hstage, Stage.isOver])
    simp only [Attended, hstage] at hattended
    refine ⟨old, { a with created := some uid, stage := .didCreateUser true }, ?_, hold, hscreen,
      hattended, rfl⟩
    simp only [create, hattempts, modify_concat]
  | @refused i a ha hstage =>
    obtain ⟨old, hattempts, rfl, hold, hscreen, hattended⟩ :=
      hs.unfinished ha (by simp [hstage, Stage.isOver])
    simp only [Attended, hstage] at hattended
    exact Alone.setStage s.2 hattempts hold hscreen hattended
  | @didCreateUser i a ok ha hstage =>
    obtain ⟨old, hattempts, rfl, hold, hscreen, hattended⟩ :=
      hs.unfinished ha (by simp [hstage, Stage.isOver])
    cases ok with
    | false =>
      simp only [Attended, hstage] at hattended
      exact Alone.setStage { s.2 with hud := s.2.hud.hideLoading } hattempts hold hscreen
        hattended.hideLoading
    | true =>
      simp only [Attended, hstage] at hattended
      obtain ⟨hhud, hsignedIn⟩ := hattended
      obtain ⟨uid, huid⟩ := Option.isSome_iff_exists.mp hsignedIn
      obtain ⟨user, huser⟩ := Option.isSome_iff_exists.mp hscreen
      have hcall : didCreateUser s.2 a true = (s.2, .setData uid user.dictionary) := by
        simp [didCreateUser, huid, huser]
      rw [hcall]
      exact Alone.setStage s.2 hattempts hold hscreen hhud
  | @setData i a ok uid userDict ha hstage =>
    obtain ⟨old, hattempts, rfl, hold, hscreen, hattended⟩ :=
      hs.unfinished ha (by simp [hstage, Stage.isOver])
    simp only [Attended, hstage] at hattended
    exact Alone.setStage s.2 hattempts hold hscreen hattended
  | @didSetData i a ok ha hstage =>
    obtain ⟨old, hattempts, rfl, hold, hscreen, hattended⟩ :=
      hs.unfinished ha (by simp [hstage, Stage.isOver])
    simp only [Attended, hstage] at hattended
    exact Alone.setStage { s.2 with hud := s.2.hud.hideLoading } hattempts hold hscreen
      hattended.hideLoading

/-- A registration always hides the indicator. -/
theorem hides {m : Firestore × Flow} {j : ℕ} {name : String} {es : List Event}
    (hwf : s.2.hud.WellFormed) (hidle : s.2.idle = true)
    (htap : step s (.finishButtonDidTap j name) = some m)
    (he : ∀ e ∈ es, ∀ j name, e ≠ .finishButtonDidTap j name) (hr : run step m es = some t)
    (hdone : t.2.idle = true) : Hides s.2.hud t.2.hud := by
  have hstart : Alone s.2.hud.shown m.2 := by
    cases step_cases htap with
    | @finishButtonDidTap _ _ user huser =>
      refine ⟨s.2.attempts, ⟨j, user.email, none, .createUser⟩, rfl, List.all_eq_true.mp hidle, ?_,
        hwf.showLoading⟩
      simp [huser]
  have hend : Alone s.2.hud.shown t.2 := by
    refine invariant (I := fun m : Firestore × Flow => Alone s.2.hud.shown m.2) ?_ hstart
      (along_of_forall he) hr
    exact fun m e m' hm hguard hstep => step_alone hguard hm hstep
  obtain ⟨old, a, hattempts, -, -, hattended⟩ := hend
  have hover := List.all_eq_true.mp hdone a (by simp [hattempts])
  cases hstage : a.stage with
  | reported ok =>
    simp only [Attended, hstage] at hattended
    exact hattended.hides_iff.mpr trivial
  | dropped => simp [Attended, hstage] at hattended
  | createUser | didCreateUser | setData | didSetData => simp [hstage, Stage.isOver] at hover

end

end TaiwanSpots.Registration

namespace TaiwanSpots
open Runs

/-- A flow that calls `showLoading`, with what it meets on its own: the documents, who
is signed in, the outcomes of its requests and the order of its callbacks. -/
inductive LoadingFlow where
  | getSpots (db : Firestore) (visible : ℕ → Bool) (page : SpotsViewController) (hud : HUD)
      (currentUser : Option String) (es : List CityPage.Event)
  | favorites (db : Firestore) (hud : HUD) (currentUser : Option String)
      (es : List FavoritesPage.Event)
  | setupData (db : Firestore) (session : Profile.Session) (es : List Profile.Event)
  | removal (s : Firestore × FavoriteButton.Device) (cell : ℕ) (ok : FavoriteButton.Answers)
  | registration (s : Firestore × Registration.Flow) (stepThree : ℕ) (name : String)
      (es : List Registration.Event)

namespace LoadingFlow

/-- The indicator before the flow starts. -/
def before : LoadingFlow → HUD
  | getSpots _ _ _ hud _ _ => hud
  | favorites _ hud _ _ => hud
  | setupData _ session _ => session.hud
  | removal s _ _ => s.2.hud
  | registration s _ _ _ => s.2.hud

/-- The flow runs on its own until all its callbacks and blocks have run. -/
def EndsWith (after : HUD) : LoadingFlow → Prop
  | getSpots db visible page hud currentUser es => ∃ s t : CityPage.Loading, t.Done ∧
      CityPage.getSpots page hud currentUser = some s ∧
      run (CityPage.step db visible) s es = some t ∧ t.hud = after
  | favorites db hud currentUser es => ∃ t : FavoritesPage.Loading, t.Done ∧
      run (FavoritesPage.step db) (FavoritesPage.viewDidLoad hud currentUser) es = some t ∧
      t.hud = after
  | setupData db session es => session.Done ∧ (∀ e ∈ es, e.isReply = true) ∧
      ∃ t, run Profile.step (db, Profile.setupData session) es = some t ∧ t.2.Done ∧
        t.2.hud = after
  | removal s c ok => s.2.idle = true ∧
      (∃ cell, s.2.pages.cell c = some cell ∧ cell.isSelected = true) ∧
      ∃ t, FavoriteButton.tapAlone ok s c = some t ∧ t.2.hud = after
  | registration s j name es => s.2.idle = true ∧
      (∀ e ∈ es, ∀ j name, e ≠ .finishButtonDidTap j name) ∧
      ∃ m t, Registration.step s (.finishButtonDidTap j name) = some m ∧
        run Registration.step m es = some t ∧ t.2.idle = true ∧ t.2.hud = after

/-- The paths that lead to `hideLoading`. -/
def Fine : LoadingFlow → Prop
  | getSpots _ _ _ _ _ es => ∀ e ∈ es, e.succeeds = true
  | favorites db _ currentUser es => ∃ uid, currentUser = some uid ∧ .didGetUser true ∈ es ∧
      FavoriteButton.stored db uid ≠ []
  | setupData db session es => ∃ uid i, session.currentUser = some uid ∧
      .getDocument i true ∈ es ∧ (db.lookup (userRef uid)).isSome = true
  | removal s c ok => ∀ cell, s.2.pages.cell c = some cell →
      FavoriteButton.RemovalHides ok s cell
  | registration _ _ _ _ => True

/-- Run on its own, a flow hides the indicator that it has shown exactly on these paths. -/
theorem flow_hides_iff {flow : LoadingFlow} {after : HUD} (hwf : flow.before.WellFormed)
    (h : flow.EndsWith after) : Hides flow.before after ↔ flow.Fine := by
  cases flow with
  | getSpots db visible page hud currentUser es =>
    obtain ⟨s, t, hdone, hopen, hr, rfl⟩ := h
    exact CityPage.hides_iff hwf hopen hr hdone
  | favorites db hud currentUser es =>
    obtain ⟨t, hdone, hr, rfl⟩ := h
    exact FavoritesPage.hides_iff hwf hr hdone
  | setupData db session es =>
    obtain ⟨hidle, he, t, hr, hdone, rfl⟩ := h
    exact Profile.hides_iff hwf hidle he hr hdone
  | removal s c ok =>
    obtain ⟨hidle, ⟨cell, hcell, hsel⟩, t, ht, rfl⟩ := h
    have hiff := FavoriteButton.removal_hides_iff hwf hidle hcell hsel ht
    simpa [before, Fine, hcell] using hiff
  | registration s j name es =>
    obtain ⟨hidle, he, m, t, htap, hr, hdone, rfl⟩ := h
    exact iff_of_true (Registration.hides hwf hidle htap he hr hdone) trivial

/-- The page of the favourites of an account that has none. -/
def sampleNoFavorites : LoadingFlow :=
  .favorites (AList.singleton (userRef "u") (FavoriteButton.favoriteData (some [])))
    ⟨none, 0, []⟩ (some "u") [.didGetUser true]

theorem endsWith_sampleNoFavorites : sampleNoFavorites.EndsWith ⟨some 0, 1, []⟩ :=
  ⟨_, ⟨rfl, List.forall_mem_nil _⟩, rfl, rfl⟩

/-- The page of the favourites of an account that has one. -/
def sampleFavoriteFlow : LoadingFlow :=
  .favorites ((AList.singleton (userRef "u") (FavoriteButton.favoriteData (some ["a"]))).insert
      ⟨.spots, "a"⟩ (sampleSpot "a" none).dictionary)
    ⟨none, 0, []⟩ (some "u") [.didGetUser true, .didGetSpot 0 true, .notify 0]

theorem flow_hides_iff_sample :
    sampleFavoriteFlow.EndsWith ⟨some 0, 1, [0]⟩ ∧ Hides ⟨none, 0, []⟩ ⟨some 0, 1, [0]⟩ := by
  have hends : sampleFavoriteFlow.EndsWith ⟨some 0, 1, [0]⟩ :=
    ⟨_, ⟨rfl, fun _ hfetch => List.mem_singleton.mp hfetch⟩, rfl, rfl⟩
  refine ⟨hends, (@flow_hides_iff sampleFavoriteFlow ⟨some 0, 1, [0]⟩ ?_ hends).mpr ?_⟩
  · simp [HUD.WellFormed, sampleFavoriteFlow, before]
  · exact ⟨"u", rfl, by simp, by decide⟩

/-- The list of ids is empty, and the indicator stays. -/
theorem empty_favorites_keep_loading :
    ∃ (flow : LoadingFlow) (after : HUD), flow.before.WellFormed ∧ flow.EndsWith after ∧
      ¬ Hides flow.before after := by
  refine ⟨sampleNoFavorites, ⟨some 0, 1, []⟩, ?_, endsWith_sampleNoFavorites, fun h => ?_⟩
  · simp [HUD.WellFormed, sampleNoFavorites, before]
  · exact absurd (h (by decide)) (by decide)

end LoadingFlow

end TaiwanSpots
