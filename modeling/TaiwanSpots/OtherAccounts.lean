import TaiwanSpots.Administration
import TaiwanSpots.AuthGate

/-!
# Accounts that are not used on an app

An app reads the listings, the documents of spots and those of the accounts that are
signed in on it. The document of any other account may hold anything and change at any
time: the app shows, asks for and writes what it does without.
-/
namespace TaiwanSpots
open Runs

/-- The databases differ in the documents of accounts that are not known, if at all. -/
structure AgreeFor (known : String → Prop) (db db' : Firestore) : Prop where
  catalogue : catalogue db = catalogue db'
  accounts : ∀ uid, known uid → accounts db uid = accounts db' uid

section
variable {known : String → Prop} {db db' : Firestore}

theorem AgreeFor.symm (h : AgreeFor known db db') : AgreeFor known db' db :=
  ⟨h.catalogue.symm, fun uid huid => (h.accounts uid huid).symm⟩

theorem AgreeFor.getSpot (h : AgreeFor known db db') {ref : DocumentReference}
    (href : ref.collection.root = .spots) (ok : Bool) :
    db'.getDocument ref ok = db.getDocument ref ok := by
  have hdoc : db.lookup ref = db'.lookup ref := lookup_of_catalogue h.catalogue (by simp [href])
  rw [Firestore.getDocument, Firestore.getDocument, hdoc]

theorem AgreeFor.getUser (h : AgreeFor known db db') {uid : String} (huid : known uid) (ok : Bool) :
    db'.getDocument (userRef uid) ok = db.getDocument (userRef uid) ok := by
  have hdoc : db.lookup (userRef uid) = db'.lookup (userRef uid) := h.accounts uid huid
  rw [Firestore.getDocument, Firestore.getDocument, hdoc]

theorem AgreeFor.write (h : AgreeFor known db db') (ref : DocumentReference)
    (data : Option Dictionary) : AgreeFor known (db.write ref data) (db'.write ref data) := by
  refine ⟨catalogue_eq_iff.mpr fun c hc =>
    Firestore.documents_write (catalogue_eq_iff.mp h.catalogue c hc) ref data, fun uid huid => ?_⟩
  have hold := h.accounts uid huid
  by_cases href : userRef uid = ref
  · subst href
    cases data <;> simp [TaiwanSpots.accounts, Firestore.write]
  · cases data <;>
      simpa [TaiwanSpots.accounts, Firestore.write, AList.lookup_insert_ne href,
        AList.lookup_erase_ne href] using hold

/-- A write to the document of an account that is not known. -/
theorem AgreeFor.write_other (h : AgreeFor known db db') {uid : String} (huid : ¬ known uid)
    (data : Option Dictionary) : AgreeFor known (db.write (userRef uid) data) db' := by
  refine ⟨?_, fun uid' huid' => ?_⟩
  · cases data with
    | some data => rw [Firestore.write, catalogue_insert_user, h.catalogue]
    | none =>
      refine catalogue_eq_iff.mpr fun c hc => ?_
      rw [Firestore.write, Firestore.documents_erase, List.eraseP_of_forall_not]
      · exact catalogue_eq_iff.mp h.catalogue c hc
      · rintro document - heq
        obtain ⟨rfl, -⟩ := DocumentReference.mk.inj (of_decide_eq_true heq)
        exact hc rfl
  · have hne : userRef uid' ≠ userRef uid := by
      rintro heq
      exact huid ((DocumentReference.mk.inj heq).2 ▸ huid')
    have hold := h.accounts uid' huid'
    cases data <;>
      simpa [TaiwanSpots.accounts, Firestore.write, AList.lookup_insert_ne hne,
        AList.lookup_erase_ne hne] using hold

/-- An update of the document of a known account. -/
theorem AgreeFor.updateData (h : AgreeFor known db db') {uid : String} (huid : known uid)
    (data : Dictionary) : AgreeFor known ((db.updateData (userRef uid) data).getD db)
      ((db'.updateData (userRef uid) data).getD db') := by
  have hdoc : db.lookup (userRef uid) = db'.lookup (userRef uid) := h.accounts uid huid
  cases hold : db'.lookup (userRef uid) with
  | none => simpa [Firestore.updateData, hdoc, hold] using h
  | some d =>
    simp only [Firestore.updateData, hdoc, hold, Option.map_some, Option.getD_some]
    exact h.write (userRef uid) (some (d.merge data))

end

/-! What the parts of an app read. -/

section
variable {known : String → Prop} {db db' : Firestore}

theorem CityPage.step_of_agree (hdb : AgreeFor known db db') {visible : ℕ → Bool}
    {s : CityPage.Loading} (hs : ∀ uid, s.userFetch = some uid → known uid)
    (hrefs : ∀ ref, some ref ∈ s.spotFetches → ref.collection.root = .spots)
    (e : CityPage.Event) : CityPage.step db' visible s e = CityPage.step db visible s e := by
  cases e with
  | didGetSpot i ok =>
    rcases hfetch : s.spotFetches[i]? with _ | _ | ref
    · simp only [CityPage.step, hfetch]
    · simp only [CityPage.step, hfetch]
    · simp only [CityPage.step, hfetch, hdb.getSpot (hrefs ref (List.mem_of_getElem? hfetch))]
  | didGetUser ok =>
    cases huser : s.userFetch with
    | none => simp only [CityPage.step, huser, Option.map_none]
    | some uid => simp only [CityPage.step, huser, Option.map_some, hdb.getUser (hs uid huser)]
  | notify => rfl

theorem FavoritesPage.step_of_agree (hdb : AgreeFor known db db') {s : FavoritesPage.Loading}
    (hs : ∀ uid, s.userFetch = some uid → known uid)
    (hrefs : ∀ ref, .getDocument ref ∈ s.fetches → ref.collection.root = .spots)
    (e : FavoritesPage.Event) : FavoritesPage.step db' s e = FavoritesPage.step db s e := by
  cases e with
  | didGetUser ok =>
    cases huser : s.userFetch with
    | none => simp only [FavoritesPage.step, huser, Option.bind_none]
    | some uid =>
      simp only [FavoritesPage.step, huser, Option.bind_some, hdb.getUser (hs uid huser)]
  | didGetSpot i ok =>
    rcases hfetch : s.fetches[i]? with _ | ref | _ | _
    · simp only [FavoritesPage.step, hfetch]
    · simp only [FavoritesPage.step, hfetch, hdb.getSpot (hrefs ref (List.mem_of_getElem? hfetch))]
    · simp only [FavoritesPage.step, hfetch]
    · simp only [FavoritesPage.step, hfetch]
  | notify i => rfl

/-- The pages that load are loaded for known accounts, and the taps are theirs. -/
structure Screens.Confined (known : String → Prop) (s : Screens.Tabs) : Prop where
  taps : ∀ tap ∈ s.device.taps, known tap.uid
  cities : ∀ page loading, s.cityLoads page = some loading →
    ∀ uid, loading.userFetch = some uid → known uid
  favorites : ∀ page loading, s.favoritesLoads page = some loading →
    ∀ uid, loading.userFetch = some uid → known uid
  fetching : s.Fetching

theorem Screens.step_of_agree (hdb : AgreeFor known db db') {s : Screens.Tabs}
    (hs : Screens.Confined known s) {e : Screens.Event} {t : Firestore × Screens.Tabs}
    (h : Screens.step (db, s) e = some t) : ∃ u, Screens.step (db', s) e = some (u, t.2) := by
  cases e with
  | signOut | signIn uid | write ref data =>
    cases h
    exact ⟨_, rfl⟩
  | didGetDocuments ok =>
    have hcities := catalogue_eq_iff.mp hdb.catalogue .cities nofun
    simp only [Screens.step, ← hcities] at h ⊢
    split at h <;> cases h
    exact ⟨db', if_pos ‹_›⟩
  | reloadData | didSelectCity item page | openFavorites page | didSelectSpot owner item =>
    obtain ⟨r, hr, rfl⟩ := Option.map_eq_some_iff.mp h
    exact ⟨db', Option.map_eq_some_iff.mpr ⟨r, hr, rfl⟩⟩
  | city page e =>
    obtain ⟨loading, hloading, h⟩ := Option.bind_eq_some_iff.mp h
    obtain ⟨r, hr, rfl⟩ := Option.map_eq_some_iff.mp h
    obtain ⟨started, hstarted, rfl⟩ := Option.map_eq_some_iff.mp hloading
    refine ⟨db', Option.bind_eq_some_iff.mpr ⟨_, hloading, Option.map_eq_some_iff.mpr ⟨r, ?_, rfl⟩⟩⟩
    refine (CityPage.step_of_agree hdb ?_ ?_ e).trans hr
    · exact hs.cities page started hstarted
    · exact hs.fetching.cities page started hstarted
  | favorites page e =>
    obtain ⟨loading, hloading, h⟩ := Option.bind_eq_some_iff.mp h
    obtain ⟨r, hr, rfl⟩ := Option.map_eq_some_iff.mp h
    obtain ⟨started, hstarted, rfl⟩ := Option.map_eq_some_iff.mp hloading
    refine ⟨db', Option.bind_eq_some_iff.mpr ⟨_, hloading, Option.map_eq_some_iff.mpr ⟨r, ?_, rfl⟩⟩⟩
    refine (FavoritesPage.step_of_agree hdb ?_ ?_ e).trans hr
    · exact hs.favorites page started hstarted
    · exact hs.fetching.favorites page started hstarted
  | device e =>
    obtain ⟨r, hr, rfl⟩ := Option.map_eq_some_iff.mp h
    obtain ⟨u, hu, -⟩ := device_reads (fun tap htap => hdb.accounts _ (hs.taps tap htap)) hr
    exact ⟨u, Option.map_eq_some_iff.mpr ⟨_, hu, rfl⟩⟩

theorem CityPage.userFetch_of_step {db : Firestore} {visible : ℕ → Bool} {s t : CityPage.Loading}
    {e : CityPage.Event} (h : CityPage.Step db visible s e t) {uid : String}
    (huser : t.userFetch = some uid) : s.userFetch = some uid := by
  cases h with
  | lost | missing | arrived | notify => exact huser
  | userLost | unlisted | listed => cases huser

theorem FavoritesPage.userFetch_of_step {db : Firestore} {s t : FavoritesPage.Loading}
    {e : FavoritesPage.Event} (h : FavoritesPage.Step db s e t) {uid : String}
    (huser : t.userFetch = some uid) : s.userFetch = some uid := by
  cases h with
  | missing | arrived | notify => exact huser
  | unlisted | listed => cases huser

theorem Screens.Confined.step {s t : Firestore × Screens.Tabs} {e : Screens.Event}
    (hs : Screens.Confined known s.2)
    (huser : ∀ uid, s.2.device.currentUser = some uid → known uid)
    (h : Screens.Step s e t) : Screens.Confined known t.2 := by
  have hfetching := hs.fetching.step h
  cases h with
  | signOut | signIn | write | didGetDocuments | reloadData | noCity | didSelectSpot =>
    exact ⟨hs.taps, hs.cities, hs.favorites, hfetching⟩
  | openCity =>
    refine ⟨hs.taps, forall_update_some hs.cities fun loading hloading => ?_, hs.favorites,
      hfetching⟩
    obtain rfl := Option.some.inj hloading
    exact huser
  | openFavorites =>
    refine ⟨hs.taps, hs.cities, forall_update_some hs.favorites fun loading hloading => ?_,
      hfetching⟩
    obtain rfl := Option.some.inj hloading
    exact huser
  | city hloading hstep =>
    refine ⟨hs.taps, forall_update_some hs.cities fun loading heq uid hfetch => ?_, hs.favorites,
      hfetching⟩
    obtain rfl := Option.some.inj heq
    exact hs.cities _ _ hloading uid (CityPage.userFetch_of_step hstep hfetch)
  | favorites hloading hstep =>
    refine ⟨hs.taps, hs.cities, forall_update_some hs.favorites fun loading heq uid hfetch => ?_,
      hfetching⟩
    obtain rfl := Option.some.inj heq
    exact hs.favorites _ _ hloading uid (FavoritesPage.userFetch_of_step hstep hfetch)
  | device hstep =>
    exact ⟨Administration.device_taps (s := (s.1, s.2.device)) hs.taps huser hstep, hs.cities,
      hs.favorites, hfetching⟩

theorem Profile.step_of_agree (hdb : AgreeFor known db db') {s : Profile.Session}
    (hs : ∀ setup ∈ s.setups, known setup.uid) {e : Profile.Event} (he : Client.ofProfile e = true)
    {t : Firestore × Profile.Session} (h : Profile.step (db, s) e = some t) :
    ∃ u, Profile.step (db', s) e = some (u, t.2) := by
  cases e with
  | setupData | signOut ok =>
    cases h
    exact ⟨db', rfl⟩
  | signIn uid knowsProfile | write uid dictionary => cases he
  | getDocument i ok =>
    obtain ⟨setup, hsetup, h⟩ := Option.bind_eq_some_iff.mp h
    have hread := hdb.getUser (hs setup (List.mem_of_getElem? hsetup)) ok
    simp only [Profile.step, hsetup, Option.bind_some, hread]
    split at h <;> cases h
    exact ⟨db', rfl⟩
  | didGetDocument i | didSetImage i =>
    obtain ⟨setup, hsetup, h⟩ := Option.bind_eq_some_iff.mp h
    simp only [Profile.step, hsetup, Option.bind_some]
    split at h <;> cases h
    exact ⟨db', rfl⟩

theorem Registration.step_of_agree (hdb : AgreeFor known db db') {s : Registration.Flow}
    {e : Registration.Event} (he : ∀ i uid, e = .createUser i (some uid) → known uid)
    {t : Firestore × Registration.Flow} (h : Registration.step (db, s) e = some t) :
    ∃ u, Registration.step (db', s) e = some (u, t.2) := by
  cases e with
  | finishButtonDidTap j name =>
    obtain ⟨r, hr, rfl⟩ := Option.map_eq_some_iff.mp h
    exact ⟨db', Option.map_eq_some_iff.mpr ⟨r, hr, rfl⟩⟩
  | createUser i uid =>
    obtain ⟨a, ha, h⟩ := Option.bind_eq_some_iff.mp h
    simp only [Registration.step, ha, Option.bind_some]
    cases uid with
    | none =>
      simp only [Registration.advance] at h ⊢
      split at h <;> cases h
      exact ⟨db', rfl⟩
    | some uid =>
      have hdoc : db.lookup (userRef uid) = db'.lookup (userRef uid) :=
        hdb.accounts uid (he i uid rfl)
      have hfree : Registration.Available db' s a.email uid =
          Registration.Available db s a.email uid := by
        rw [Registration.Available, Registration.Available, hdoc]
      simp only [Registration.advance, hfree] at h ⊢
      split at h
      · split_ifs at h with huid
        cases h
        exact ⟨db', by rw [if_pos huid]⟩
      · cases h
  | didCreateUser i | didSetData i =>
    obtain ⟨a, ha, h⟩ := Option.bind_eq_some_iff.mp h
    simp only [Registration.step, ha, Option.bind_some, Registration.advance] at h ⊢
    split at h <;> cases h
    exact ⟨db', rfl⟩
  | setData i ok =>
    obtain ⟨a, ha, h⟩ := Option.bind_eq_some_iff.mp h
    simp only [Registration.step, ha, Option.bind_some, Registration.advance] at h ⊢
    split at h <;> cases h
    exact ⟨_, rfl⟩

end

namespace Client

/-- The account that an event signs in. -/
def signsIn : Event → Option String
  | .didSignIn _ uid => uid
  | .registration (.createUser _ uid) => uid
  | _ => none

section
variable {known : String → Prop} {db db' : Firestore} {characters : String → ℕ}

/-- Everything that the app has to do is for known accounts. -/
structure Confined (known : String → Prop) (app : App) : Prop where
  user : ∀ uid, app.currentUser = some uid → known uid
  tasks : Administration.Sanctioned known (fun _ => True) app
  tabs : Screens.Confined known app.tabs

/-- The app takes the step that it takes on the other database. -/
theorem step_of_agree (hdb : AgreeFor known db db') {s : App} (hs : Confined known s) {e : Event}
    (he : ∀ uid, signsIn e = some uid → known uid) {t : Firestore × App}
    (h : step characters (db, s) e = some t) : ∃ u, step characters (db', s) e = some (u, t.2) := by
  cases e with
  | stepOne email =>
    simp only [step] at h ⊢
    split at h <;> cases h
    · exact ⟨db', if_pos ‹_›⟩
    · exact ⟨db', if_neg ‹_›⟩
  | stepTwo j password =>
    obtain ⟨email, hemail, rfl⟩ := Option.map_eq_some_iff.mp h
    refine ⟨db', Option.map_eq_some_iff.mpr ⟨email, hemail, ?_⟩⟩
    split_ifs <;> rfl
  | registration e =>
    obtain ⟨r, hr, rfl⟩ := Option.map_eq_some_iff.mp h
    obtain ⟨u, hu⟩ := Registration.step_of_agree hdb (fun i uid hi => he uid (by rw [hi]; rfl)) hr
    exact ⟨u, Option.map_eq_some_iff.mpr ⟨_, hu, rfl⟩⟩
  | loginButtonDidTap email password knowsProfile | didFinishPickingMedia hasData =>
    cases h
    exact ⟨db', rfl⟩
  | didSignIn i uid =>
    obtain ⟨login, hlogin, rfl⟩ := Option.map_eq_some_iff.mp h
    exact ⟨db', Option.map_eq_some_iff.mpr ⟨login, hlogin, rfl⟩⟩
  | profile e =>
    simp only [step] at h ⊢
    split_ifs at h ⊢ with hprofile
    obtain ⟨r, hr, rfl⟩ := Option.map_eq_some_iff.mp h
    have hsetups : ∀ setup ∈ s.session.setups, known setup.uid := fun setup hsetup =>
      (hs.tasks.setups setup hsetup).1
    obtain ⟨u, hu⟩ := Profile.step_of_agree hdb hsetups hprofile hr
    exact ⟨u, Option.map_eq_some_iff.mpr ⟨_, hu, rfl⟩⟩
  | didPutData i ok | updateData i ok =>
    obtain ⟨upload, hupload, h⟩ := Option.bind_eq_some_iff.mp h
    simp only [step, hupload, Option.bind_some, advance] at h ⊢
    split at h <;> cases h
    exact ⟨_, rfl⟩
  | didDownloadURL i url =>
    obtain ⟨upload, hupload, h⟩ := Option.bind_eq_some_iff.mp h
    simp only [step, hupload, Option.bind_some] at h ⊢
    cases url <;> simp only [advance] at h ⊢ <;> split at h <;> cases h <;> exact ⟨_, rfl⟩
  | tabs e =>
    simp only [step] at h ⊢
    split_ifs at h ⊢ with htabs
    obtain ⟨r, hr, rfl⟩ := Option.map_eq_some_iff.mp h
    obtain ⟨u, hu⟩ := Screens.step_of_agree hdb hs.tabs hr
    exact ⟨u, Option.map_eq_some_iff.mpr ⟨_, hu, rfl⟩⟩

/-- What the server carries out leaves the databases alike. -/
theorem agree_of_step (hdb : AgreeFor known db db') {s : App} (hs : Confined known s) {e : Event}
    (he : ∀ uid, signsIn e = some uid → known uid) {t : Firestore × App}
    (h : step characters (db, s) e = some t) :
    ∃ u, step characters (db', s) e = some (u, t.2) ∧ AgreeFor known t.1 u := by
  obtain ⟨u, hu⟩ := step_of_agree hdb hs he h
  refine ⟨u, hu, ?_⟩
  cases hofApp : ofApp e with
  | false =>
    obtain ⟨ref, data, rfl⟩ : ∃ ref data, e = .tabs (.write ref data) := by
      unfold ofApp at hofApp
      split at hofApp
      · exact ⟨_, _, rfl⟩
      · cases hofApp
    cases h
    cases hu
    exact hdb.write ref data
  | true =>
    obtain ⟨ht, -⟩ := step_covered hofApp h
    obtain ⟨hu, -⟩ := step_covered hofApp hu
    simp only at ht hu
    rw [ht, hu]
    cases hcarried : carried s e with
    | none => exact hdb
    | some w =>
      simp only [Option.elim_some]
      rcases carried_cases hcarried with ⟨tap, htap, ids, rfl⟩ | ⟨a, ha, uid, d, hstage, rfl⟩ |
          ⟨i, upload, d, hupload, hstage, rfl⟩
      · exact hdb.updateData (hs.tasks.taps tap htap) _
      · exact hdb.write (userRef uid) (some d)
      · exact hdb.updateData (hs.tasks.uploads upload (List.mem_of_getElem? hupload)).1 d

variable {s t : Firestore × App} {e : Event}

/-- Whoever is signed in after the event was before, or is signed in by it. -/
theorem currentUser_of_step (h : step characters s e = some t) {uid : String}
    (huser : t.2.currentUser = some uid) : s.2.currentUser = some uid ∨ signsIn e = some uid := by
  cases step_cases h with
  | @registration e r hstep =>
    have hflow : r.2.currentUser = some uid := huser
    cases hstep with
    | created => exact .inr hflow
    | finishButtonDidTap | refused | setData | didSetData => exact .inl hflow
    | @didCreateUser i a ok =>
      refine .inl ?_
      simp only [Registration.didCreateUser] at hflow
      split_ifs at hflow
      · split at hflow <;> exact hflow
      · exact hflow
  | didSignIn =>
    rw [App.currentUser, currentUser_didSignIn] at huser
    exact .inr huser
  | @profile e r he hstep =>
    have hsession : r.2.currentUser = some uid := huser
    rcases currentUser_of_profile he hstep with hsame | ⟨-, hnone⟩
    · exact .inl (hsame.symm.trans hsession)
    · rw [hnone] at hsession
      cases hsession
  | tabs he hstep => exact .inl ((currentUser_of_tabs he hstep).symm.trans huser)
  | invalidEmail | stepOne | shortPassword | stepTwo | loginButtonDidTap | notSignedIn
  | nothingPicked | didFinishPickingMedia | didPutData | didDownloadURL | noURL | updateData =>
    exact .inl huser

theorem Confined.step (hs : Confined known s.2) (he : ∀ uid, signsIn e = some uid → known uid)
    (h : step characters s e = some t) : Confined known t.2 := by
  have huser : ∀ uid, t.2.currentUser = some uid → known uid := fun uid hafter =>
    (currentUser_of_step h hafter).elim (hs.user uid) (he uid)
  refine ⟨huser, Administration.app_sanctioned hs.tasks (fun _ _ => trivial) hs.user huser h, ?_⟩
  cases step_cases h with
  | tabs htabs hstep =>
    have htabs := hs.tabs.step hs.user hstep
    exact ⟨htabs.taps, htabs.cities, htabs.favorites, htabs.fetching.cities,
      htabs.fetching.favorites⟩
  | invalidEmail | stepOne | shortPassword | stepTwo | loginButtonDidTap | notSignedIn
  | nothingPicked | didFinishPickingMedia | didPutData | didDownloadURL | noURL | updateData
  | registration | didSignIn | profile =>
    exact ⟨hs.tabs.taps, hs.tabs.cities, hs.tabs.favorites, hs.tabs.fetching.cities,
      hs.tabs.fetching.favorites⟩

end
end Client

namespace Shell

/-- The account that an event signs in. -/
def signsIn : Event → Option String
  | .didSignIn uid => some uid
  | .client e => Client.signsIn e
  | _ => none

/-- The account is signed in when the app starts or by one of the events. -/
def Uses (currentUser : Option String) (es : List Event) (uid : String) : Prop :=
  currentUser = some uid ∨ ∃ e ∈ es, signsIn e = some uid

/-- The event is a write of another client to the document of an account that is not known. -/
def Hidden (known : String → Prop) (e : Event) : Prop :=
  ∃ uid data, ¬ known uid ∧ e = .client (.tabs (.write (userRef uid) data))

theorem presentation_app (count : String → ℕ) (old : Client.App) (s : State) (e : Client.Event) :
    (presentation count old s e).app = s.app := by
  have hpush : ∀ screen, (s.push screen).app = s.app := fun screen => by
    unfold State.push
    split <;> rfl
  have hscreen : ∀ screen, (s.dismissScreen screen).app = s.app := fun screen => by
    unfold State.dismissScreen
    split
    · split_ifs <;> rfl
    · rfl
  unfold presentation
  split
  · split_ifs <;> simp [hpush]
  · split_ifs <;> simp [hpush]
  · split <;> simp [hscreen]
  · split <;> rfl
  · split <;> simp [dismissSheet_app]
  all_goals rfl

section
variable {known : String → Prop} {count : String → ℕ}

/-- The same app on databases that agree. -/
structure Alike (known : String → Prop) (s t : Firestore × State) : Prop where
  state : s.2 = t.2
  store : AgreeFor known s.1 t.1
  confined : Client.Confined known s.2.app

theorem step_alike {s s' t : Firestore × State} {e : Event} (hs : Alike known s s')
    (he : ∀ uid, signsIn e = some uid → known uid) (h : step count s e = some t) :
    ∃ t', step count s' e = some t' ∧ Alike known t t' := by
  obtain ⟨db, s⟩ := s
  obtain ⟨db', s'⟩ := s'
  obtain ⟨rfl, hdb, happ⟩ := hs
  have hscreens : ∀ t : State, t.app = s.app → Alike known (db, t) (db', t) := fun t ht =>
    ⟨rfl, hdb, ht ▸ happ⟩
  cases e with
  | viewDidAppear =>
    cases h
    refine ⟨_, rfl, hscreens _ ?_⟩
    unfold State.viewDidAppear
    split <;> rfl
  | registerButtonDidTap =>
    simp only [step] at h ⊢
    split at h <;> cases h
    refine ⟨_, rfl, hscreens _ ?_⟩
    unfold State.push
    split <;> rfl
  | back =>
    simp only [step] at h ⊢
    split at h <;> cases h
    exact ⟨_, rfl, hscreens _ rfl⟩
  | avatarImageViewDidTap | imagePickerControllerDidCancel | mapDidAppear | alertDidTap =>
    simp only [step] at h ⊢
    split_ifs at h ⊢
    cases h
    exact ⟨_, rfl, hscreens _ rfl⟩
  | didSignIn uid =>
    cases h
    refine ⟨_, rfl, rfl, hdb, fun uid' huid' => ?_, ?_, ?_⟩
    · exact he uid' huid'
    · exact ⟨happ.tasks.taps, happ.tasks.attempts, happ.tasks.uploads, happ.tasks.setups,
        happ.tasks.flag⟩
    · exact ⟨happ.tabs.taps, happ.tabs.cities, happ.tabs.favorites, happ.tabs.fetching.cities,
        happ.tabs.fetching.favorites⟩
  | client e =>
    simp only [step] at h ⊢
    split_ifs at h ⊢
    obtain ⟨r, hr, rfl⟩ := Option.map_eq_some_iff.mp h
    obtain ⟨u, hu, hagree⟩ := Client.agree_of_step hdb happ he hr
    refine ⟨_, Option.map_eq_some_iff.mpr ⟨_, hu, rfl⟩, rfl, hagree, ?_⟩
    rw [presentation_app]
    exact happ.step he hr

/-- What another client writes changes nothing in the app. -/
theorem step_write (s : Firestore × State) (ref : DocumentReference) (data : Option Dictionary) :
    step count s (.client (.tabs (.write ref data))) = some (s.1.write ref data, s.2) := by
  simp [step, enabled, Client.step, Client.ofTabs, Screens.step, presentation,
    Client.issuedByTabs, Client.App.log]

theorem hidden_left {s s' t : Firestore × State} {e : Event} (hs : Alike known s s')
    (he : Hidden known e) (h : step count s e = some t) : Alike known t s' := by
  obtain ⟨uid, data, huid, rfl⟩ := he
  rw [step_write] at h
  cases h
  exact ⟨hs.state, hs.store.write_other huid data, hs.confined⟩

theorem hidden_right {s s' : Firestore × State} {e : Event} (hs : Alike known s s')
    (he : Hidden known e) : ∃ t', step count s' e = some t' ∧ Alike known s t' := by
  obtain ⟨uid, data, huid, rfl⟩ := he
  exact ⟨_, step_write _ _ _, hs.state, (hs.store.symm.write_other huid data).symm, hs.confined⟩

end

/-- What an app shows, asks for and writes does not depend on the documents of accounts that
are not used on it, nor on when and how other clients change them. -/
theorem other_accounts_unseen {count : String → ℕ} {currentUser : Option String}
    {db db' : Firestore} {es es' : List Event} {t : Firestore × State}
    (hdb : AgreeFor (Uses currentUser es) db db')
    (hes : SameBut (Hidden (Uses currentUser es)) es es')
    (hr : run (step count) (db, launch currentUser) es = some t) :
    ∃ u, run (step count) (db', launch currentUser) es' = some (u, t.2) ∧
      AgreeFor (Uses currentUser es) t.1 u := by
  have hstart : Alike (Uses currentUser es) (db, launch currentUser) (db', launch currentUser) := by
    refine ⟨rfl, hdb, fun uid huid => .inl huid, ?_, ?_⟩
    · exact Administration.launch_sanctioned currentUser fun uid huid => .inl huid
    · exact ⟨nofun, nofun, nofun, nofun, nofun⟩
  have hused : ∀ e ∈ es, ∀ uid, signsIn e = some uid → Uses currentUser es uid :=
    fun e he uid huid => .inr ⟨e, he, huid⟩
  obtain ⟨⟨u, s⟩, hu, rfl, hagree, -⟩ := run_of_sameBut (fun _ _ _ _ => step_alike)
    (fun _ _ _ _ => hidden_left) (fun _ _ _ => hidden_right) hes hused hstart hr
  exact ⟨u, hu, hagree⟩

/-- Another client deletes the document of `v` while `a` registers. -/
def sampleDeletion : List Event :=
  .viewDidAppear :: .registerButtonDidTap :: .client (.tabs (.write (userRef "v") none)) ::
    sampleShell.drop 2

theorem other_accounts_unseen_sample :
    ∃ s u, run (step String.length) (∅, launch none) sampleShell = some s ∧
      run (step String.length) (AList.insert (userRef "v") [] ∅, launch none) sampleDeletion =
        some (u, s.2) := by
  have hrun : (run (step String.length) (∅, launch none) sampleShell).isSome = true := by decide
  obtain ⟨s, hs⟩ := Option.isSome_iff_exists.mp hrun
  have hother : ¬ Uses none sampleShell "v" := by simp [Uses, sampleShell, signsIn, Client.signsIn]
  have hsame : AgreeFor (Uses none sampleShell) ∅ ∅ := ⟨rfl, fun _ _ => rfl⟩
  obtain ⟨u, hu, -⟩ := @other_accounts_unseen String.length none ∅ _ sampleShell sampleDeletion s
    (hsame.write_other hother (some [])).symm
    (.cons _ (.cons _ (.right ⟨"v", none, hother, rfl⟩ (.refl _)))) hs
  exact ⟨s, u, hs, hu⟩

end Shell
end TaiwanSpots
