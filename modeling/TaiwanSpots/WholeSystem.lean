import TaiwanSpots.Separation
import TaiwanSpots.RebuildRecovery
import TaiwanSpots.FavoriteArrays
import TaiwanSpots.ClientSteps

/-!
# Rebuilds and apps over one database

Rebuilds work on the Spots and Cities documents and leave those of the accounts alone.
Taps on hearts work on the documents of the accounts and leave the others alone, and so
do the other writes of the app. Rebuilds among any number of apps are therefore the
rebuilds that they are without them, and taps among rebuilds are what they are without.
-/
namespace TaiwanSpots
open DocumentStore Runs

/-- What rebuilds work on: the listings of all collections but those of the accounts. -/
def catalogue (db : Firestore) (c : { c : Collection // c.root ≠ .users }) :
    List (String × Dictionary) :=
  db.documents c

/-- What taps work on: the documents of the accounts. -/
def accounts (db : Firestore) (uid : String) : Option Dictionary := db.lookup (userRef uid)

theorem catalogue_eq_iff {db db' : Firestore} : catalogue db = catalogue db' ↔
    ∀ c : Collection, c.root ≠ .users → db.documents c = db'.documents c := by
  simp only [funext_iff, catalogue, Subtype.forall]

theorem lookup_of_catalogue {db db' : Firestore} (h : catalogue db = catalogue db')
    {k : DocumentReference} (hk : k.collection.root ≠ .users) : db.lookup k = db'.lookup k :=
  Firestore.lookup_of_documents (catalogue_eq_iff.mp h k.collection hk) k.documentID

theorem perform_eq_write (fails : Label → Bool) (db : Firestore) (r : WriteRequest) :
    perform fails db r = if fails r.label then db else db.write r.key r.value := by
  unfold perform
  cases r.value <;> rfl

theorem catalogue_perform {db db' : Firestore} (h : catalogue db = catalogue db')
    (fails : Label → Bool) (r : WriteRequest) :
    catalogue (perform fails db r) = catalogue (perform fails db' r) := by
  rw [perform_eq_write, perform_eq_write]
  split_ifs
  · exact h
  · exact catalogue_eq_iff.mpr fun c hc =>
      Firestore.documents_write (catalogue_eq_iff.mp h c hc) _ _

@[simp] theorem catalogue_insert_user (db : Firestore) (uid : String) (data : Dictionary) :
    catalogue (db.insert (userRef uid) data) = catalogue db := by
  refine catalogue_eq_iff.mpr fun c hc => Firestore.documents_insert_of_ne ?_
  rintro rfl
  exact hc rfl

theorem catalogue_updateData_user {db db' : Firestore} {uid : String} {data : Dictionary}
    (h : db.updateData (userRef uid) data = some db') : catalogue db' = catalogue db := by
  obtain ⟨d, -, rfl⟩ := Option.map_eq_some_iff.mp h
  exact catalogue_insert_user db uid _

/-! Rebuilds. -/

/-- A rebuild as a process over the database. -/
def rebuildProcess {ι : Type*} (o : ι → Outcomes) (i : ι) (db : Firestore) (p : Rebuild)
    (e : Event) : Option (Firestore × Rebuild) :=
  step (o i) (db, p) e

theorem rebuild_worksOn {ι : Type*} (o : ι → Outcomes) : WorksOn catalogue (rebuildProcess o) := by
  intro i db db' p e t hdb h
  have hspots := catalogue_eq_iff.mp hdb .spots nofun
  have hcities := catalogue_eq_iff.mp hdb .cities nofun
  simp only [rebuildProcess] at h ⊢
  cases e with
  | getDocuments =>
    have hsame : getDocuments (o i) db' p = getDocuments (o i) db p := by
      simp only [getDocuments, hspots, hcities]
    obtain ⟨q, hq, rfl⟩ := Option.map_eq_some_iff.mp h
    exact ⟨db', Option.map_eq_some_iff.mpr ⟨q, hsame.trans hq, rfl⟩, hdb.symm⟩
  | dataTask =>
    obtain ⟨q, hq, rfl⟩ := Option.map_eq_some_iff.mp h
    exact ⟨db', Option.map_eq_some_iff.mpr ⟨q, hq, rfl⟩, hdb.symm⟩
  | acknowledge label =>
    simp only [step, acknowledge] at h ⊢
    split at h <;> cases h
    exact ⟨_, rfl, catalogue_perform hdb.symm _ _⟩
  | notify =>
    obtain ⟨q, hq, rfl⟩ := Option.map_eq_some_iff.mp h
    exact ⟨db', Option.map_eq_some_iff.mpr ⟨q, hq, rfl⟩, hdb.symm⟩

theorem rebuild_leavesAlone {ι : Type*} (o : ι → Outcomes) :
    LeavesAlone accounts Rebuild.Tidy (rebuildProcess o) := by
  intro i db p e t hp h
  obtain ⟨htidy, husers⟩ := step_tidy (s := (db, p)) hp h
  exact ⟨funext fun uid => husers (userRef uid) rfl, htidy⟩

/-! Taps on hearts. -/

/-- A device as a process over the database. -/
def deviceProcess {κ : Type*} (_ : κ) (db : Firestore) (d : FavoriteButton.Device)
    (e : FavoriteButton.Event) : Option (Firestore × FavoriteButton.Device) :=
  FavoriteButton.step (db, d) e

theorem accounts_update {db db' : Firestore} (h : accounts db = accounts db') (uid : String)
    (ids : Option (List String)) (ok : Bool) :
    accounts (FavoriteButton.update db uid ids ok).1 =
      accounts (FavoriteButton.update db' uid ids ok).1 := by
  have huid : db.lookup (userRef uid) = db'.lookup (userRef uid) := congrFun h uid
  cases ok with
  | false => exact h
  | true =>
    cases hdoc : db'.lookup (userRef uid) with
    | none => simpa [FavoriteButton.update, Firestore.updateData, huid, hdoc] using h
    | some d =>
      funext uid'
      simp only [FavoriteButton.update, Firestore.updateData, huid, hdoc, if_true, Option.map_some,
        accounts]
      by_cases hu : uid' = uid
      · subst hu
        simp
      · have hne : userRef uid' ≠ userRef uid := by simpa [userRef] using hu
        rw [AList.lookup_insert_ne hne, AList.lookup_insert_ne hne]
        exact congrFun h uid'

/-- A device reads the documents of its taps' accounts only, and may update one. -/
theorem device_reads {db db' : Firestore} {d : FavoriteButton.Device} {e : FavoriteButton.Event}
    {t : Firestore × FavoriteButton.Device}
    (hread : ∀ tap ∈ d.taps, db.lookup (userRef tap.uid) = db'.lookup (userRef tap.uid))
    (h : FavoriteButton.step (db, d) e = some t) :
    ∃ u, FavoriteButton.step (db', d) e = some (u, t.2) ∧
      ((t.1 = db ∧ u = db') ∨ ∃ uid ids ok, t.1 = (FavoriteButton.update db uid ids ok).1 ∧
        u = (FavoriteButton.update db' uid ids ok).1) := by
  cases e with
  | cellForItemAt c owner item =>
    obtain ⟨pages, hpages, rfl⟩ := Option.map_eq_some_iff.mp h
    exact ⟨db', Option.map_eq_some_iff.mpr ⟨pages, hpages, rfl⟩, .inl ⟨rfl, rfl⟩⟩
  | favoriteButtonDidTap c =>
    obtain ⟨d', hd, rfl⟩ := Option.map_eq_some_iff.mp h
    exact ⟨db', Option.map_eq_some_iff.mpr ⟨d', hd, rfl⟩, .inl ⟨rfl, rfl⟩⟩
  | getDocument i ok =>
    obtain ⟨tap, htap, h⟩ := Option.bind_eq_some_iff.mp h
    have hlookup := hread tap (List.mem_of_getElem? htap)
    simp only [FavoriteButton.step, htap, Option.bind_some, FavoriteButton.advance] at h ⊢
    split at h <;> cases h
    exact ⟨db', by rw [Firestore.getDocument, Firestore.getDocument, hlookup], .inl ⟨rfl, rfl⟩⟩
  | updateData i ok =>
    obtain ⟨tap, htap, h⟩ := Option.bind_eq_some_iff.mp h
    have hlookup := hread tap (List.mem_of_getElem? htap)
    simp only [FavoriteButton.step, htap, Option.bind_some, FavoriteButton.advance] at h ⊢
    split at h <;> cases h
    refine ⟨_, ?_, .inr ⟨tap.uid, _, ok, rfl, rfl⟩⟩
    rw [FavoriteButton.update_snd, FavoriteButton.update_snd, hlookup]
  | didGetDocument i | didUpdateData i | reloadData i =>
    obtain ⟨tap, htap, h⟩ := Option.bind_eq_some_iff.mp h
    simp only [FavoriteButton.step, htap, Option.bind_some, FavoriteButton.advance] at h ⊢
    split at h <;> cases h
    exact ⟨db', rfl, .inl ⟨rfl, rfl⟩⟩

theorem device_worksOn {κ : Type*} : WorksOn accounts (deviceProcess (κ := κ)) := by
  intro _ db db' d e t hdb h
  obtain ⟨u, hu, ⟨ht, rfl⟩ | ⟨uid, ids, ok, ht, rfl⟩⟩ :=
    device_reads (fun tap _ => congrFun hdb tap.uid) h
  · exact ⟨_, hu, by rw [ht, hdb]⟩
  · exact ⟨_, hu, by rw [ht, accounts_update hdb]⟩

theorem catalogue_update (db : Firestore) (uid : String) (ids : Option (List String)) (ok : Bool) :
    catalogue (FavoriteButton.update db uid ids ok).1 = catalogue db := by
  cases ok with
  | false => rfl
  | true =>
    cases hupdate : db.updateData (userRef uid) (FavoriteButton.favoriteData ids) with
    | none => simp [FavoriteButton.update, hupdate]
    | some db' => simpa [FavoriteButton.update, hupdate] using catalogue_updateData_user hupdate

theorem catalogue_of_device {s t : Firestore × FavoriteButton.Device} {e : FavoriteButton.Event}
    (h : FavoriteButton.Step s e t) : catalogue t.1 = catalogue s.1 := by
  cases h with
  | updateData htap hstage => exact catalogue_update _ _ _ _
  | cellForItemAt | signedOut | signedIn | getDocument | didGetDocument | didUpdateData |
    reloadData => rfl

theorem device_leavesAlone {κ : Type*} :
    LeavesAlone catalogue (fun _ => True) (deviceProcess (κ := κ)) :=
  fun _ _ _ _ _ _ h => ⟨catalogue_of_device (FavoriteButton.step_cases h), trivial⟩

/-! Whole apps. -/

/-- The event is one of the app itself, not a write of another client. -/
def ofApp : Client.Event → Bool
  | .tabs (.write _ _) => false
  | _ => true

/-- An app as a process over the database. -/
def appProcess {κ : Type*} (characters : String → ℕ) (_ : κ) (db : Firestore) (app : Client.App)
    (e : Client.Event) : Option (Firestore × Client.App) :=
  if ofApp e then Client.step characters (db, app) e else none

theorem catalogue_of_registration {s t : Firestore × Registration.Flow} {e : Registration.Event}
    (h : Registration.Step s e t) : catalogue t.1 = catalogue s.1 := by
  cases h with
  | @setData i a ok uid userDict ha hstage =>
    cases ok with
    | true => exact catalogue_insert_user _ _ _
    | false => rfl
  | finishButtonDidTap | created | refused | didCreateUser | didSetData => rfl

theorem catalogue_of_profile {s t : Firestore × Profile.Session} {e : Profile.Event}
    (h : Profile.Step s e t) : catalogue t.1 = catalogue s.1 := by
  cases h with
  | write hadmin => exact catalogue_insert_user _ _ _
  | setupData | signOut | signIn | getDocument | didGetDocument | didSetImage => rfl

theorem catalogue_of_tabs {s t : Firestore × Screens.Tabs} {e : Screens.Event}
    (he : ∀ ref data, e ≠ .write ref data) (h : Screens.Step s e t) :
    catalogue t.1 = catalogue s.1 := by
  cases h with
  | write => exact absurd rfl (he _ _)
  | device hstep => exact catalogue_of_device hstep
  | signOut | signIn | didGetDocuments | reloadData | noCity | openCity | didSelectSpot
  | openFavorites | city | favorites => rfl

theorem catalogue_of_app {characters : String → ℕ} {s t : Firestore × Client.App}
    {e : Client.Event} (he : ofApp e = true) (h : Client.step characters s e = some t) :
    catalogue t.1 = catalogue s.1 := by
  cases Client.step_cases h with
  | registration hstep => exact catalogue_of_registration hstep
  | profile hprofile hstep => exact catalogue_of_profile hstep
  | tabs htabs hstep =>
    refine catalogue_of_tabs (fun ref data hwrite => ?_) hstep
    subst hwrite
    cases he
  | @updateData i ok upload dictionary hupload hstage =>
    cases ok with
    | false => rfl
    | true =>
      cases hupdate : s.1.updateData (userRef upload.uid) dictionary with
      | none => simp
      | some db => simp [catalogue_updateData_user hupdate]
  | invalidEmail | stepOne | shortPassword | stepTwo | loginButtonDidTap | notSignedIn
  | didSignIn | nothingPicked | didFinishPickingMedia | didPutData | didDownloadURL | noURL => rfl

theorem app_leavesAlone {κ : Type*} (characters : String → ℕ) :
    LeavesAlone catalogue (fun _ => True) (appProcess (κ := κ) characters) := by
  intro _ db app e t _ h
  simp only [appProcess] at h
  split_ifs at h with he
  exact ⟨catalogue_of_app he h, trivial⟩

section
variable {ι κ : Type*} [DecidableEq ι] [DecidableEq κ] {o : ι → Outcomes}

/-- Whatever any number of apps do meanwhile, rebuilds take the steps and leave the
listings that they take and leave without them. -/
theorem rebuilds_apart_from_apps {characters : String → ℕ}
    {s t : Groups Firestore ι Rebuild κ Client.App} {es : List ((ι × Event) ⊕ (κ × Client.Event))}
    (hr : run (beside (rebuildProcess o) (appProcess characters)) s es = some t) :
    ∃ u, run (rebuilds o) ⟨s.store, s.first⟩ (es.filterMap Sum.getLeft?) = some ⟨u, t.first⟩ ∧
      catalogue u = catalogue t.store :=
  run_first (rebuild_worksOn o) (app_leavesAlone characters) (fun _ => trivial) rfl hr

/-- A registration writes the document of its account while a rebuild sweeps. -/
def sampleActivity : List ((Unit × Event) ⊕ (Unit × Client.Event)) :=
  [.inl ((), .getDocuments), .inr ((), .stepOne "a@b.tw"), .inr ((), .stepTwo 0 "secret"),
    .inr ((), .registration (.finishButtonDidTap 0 "A")),
    .inl ((), .acknowledge (.deleteSpot "a")),
    .inr ((), .registration (.createUser 0 (some "u"))), .inl ((), .notify),
    .inr ((), .registration (.didCreateUser 0)), .inr ((), .registration (.setData 0 true)),
    .inl ((), .getDocuments)]

theorem rebuilds_apart_from_apps_sample :
    ∃ t : Groups Firestore Unit Rebuild Unit Client.App,
      run (beside (rebuildProcess fun _ => sampleOutcomes []) (appProcess String.length))
        ⟨sampleDatabase "a" "臺東縣", fun _ => ⟨1, .removeSpots, ⟨0, 0⟩, []⟩,
          fun _ => Client.launch none⟩ sampleActivity = some t ∧
      (t.store.lookup (userRef "u")).isSome = true ∧
      ∃ u, run (rebuilds fun _ => sampleOutcomes []) ⟨sampleDatabase "a" "臺東縣",
          fun _ => ⟨1, .removeSpots, ⟨0, 0⟩, []⟩⟩ (sampleActivity.filterMap Sum.getLeft?) =
        some ⟨u, t.first⟩ ∧ catalogue u = catalogue t.store := by
  have h := @rebuilds_apart_from_apps Unit Unit _ _ (fun _ => sampleOutcomes []) String.length
    ⟨sampleDatabase "a" "臺東縣", fun _ => ⟨1, .removeSpots, ⟨0, 0⟩, []⟩,
      fun _ => Client.launch none⟩ _ sampleActivity rfl
  exact ⟨_, rfl, rfl, h⟩

/-- Rebuilds and taps on hearts do not meet: an interleaving of the two can be executed
exactly when its rebuilds and its taps can be executed by themselves, and it leaves the
Spots and Cities of the one and the accounts of the other. -/
theorem rebuilds_and_taps_separate {user : ι → User} {count : ι → ℤ}
    {s : Groups Firestore ι Rebuild κ FavoriteButton.Device}
    {es : List ((ι × Event) ⊕ (κ × FavoriteButton.Event))}
    (hp : ∀ i, apiButtonDidTap (user i) (count i) = some (s.first i))
    (first : ι → Rebuild) (second : κ → FavoriteButton.Device)
    (listings : { c : Collection // c.root ≠ .users } → List (String × Dictionary))
    (documents : String → Option Dictionary) :
    (∃ db, run (beside (rebuildProcess o) deviceProcess) s es = some ⟨db, first, second⟩ ∧
      catalogue db = listings ∧ accounts db = documents) ↔
    (∃ db, run (rebuilds o) ⟨s.store, s.first⟩ (es.filterMap Sum.getLeft?) = some ⟨db, first⟩ ∧
      catalogue db = listings) ∧
    ∃ db, run FavoriteButton.devices ⟨s.store, s.second⟩ (es.filterMap Sum.getRight?) =
      some ⟨db, second⟩ ∧ accounts db = documents := by
  have htidy : ∀ i, (s.first i).Tidy := fun i => by simp [start_of_didTap (hp i), Rebuild.Tidy]
  constructor
  · rintro ⟨db, hr, rfl, rfl⟩
    obtain ⟨u, hu, hcatalogue⟩ :=
      run_first (rebuild_worksOn o) device_leavesAlone (fun _ => trivial) rfl hr
    obtain ⟨v, hv, haccounts⟩ := run_second device_worksOn (rebuild_leavesAlone o) htidy rfl hr
    exact ⟨⟨u, hu, hcatalogue⟩, v, hv, haccounts⟩
  · rintro ⟨⟨u, hu, rfl⟩, v, hv, rfl⟩
    obtain ⟨db, hr, hcatalogue, haccounts⟩ :=
      run_beside (rebuild_worksOn o) (rebuild_leavesAlone o) device_worksOn device_leavesAlone
        htidy (fun _ => trivial) rfl rfl hu hv
    exact ⟨db, hr, hcatalogue, haccounts⟩

end

/-- Two devices tap on the same heart while two rebuilds sweep an empty database. -/
theorem rebuilds_and_taps_separate_sample :
    ∃ db first second, run (beside (rebuildProcess sampleOverlap) deviceProcess)
      ⟨FavoriteButton.sampleDevices.store, sampleStart, FavoriteButton.sampleDevices.process⟩
      (List.flatten (List.zipWith (fun e d => [.inl e, .inr d]) sampleEvents
        FavoriteButton.sampleDoubleTap)) = some ⟨db, first, second⟩ := by
  have h := @rebuilds_and_taps_separate Bool Bool _ _ sampleOverlap (fun _ => sampleAdmin)
    sampleCount ⟨FavoriteButton.sampleDevices.store, sampleStart,
      FavoriteButton.sampleDevices.process⟩
    (List.flatten (List.zipWith (fun e d => [.inl e, .inr d]) sampleEvents
      FavoriteButton.sampleDoubleTap)) (fun _ => rfl)
  obtain ⟨db, hr, -⟩ := (h _ _ _ _).mpr ⟨⟨_, rfl, rfl⟩, _, rfl, rfl⟩
  exact ⟨db, _, _, hr⟩

end TaiwanSpots
