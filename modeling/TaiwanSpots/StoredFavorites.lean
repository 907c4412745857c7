import TaiwanSpots.ShownSpots

/-!
# Where the stored favourites come from

A heart adds the id of the spot that its cell shows, and cells show spots that a rebuild
has downloaded. The other writes of an app to the document of an account have no list of
favourites: a registration starts a document without one, and an upload names the picture
only. However many apps and rebuilds meet, every stored list is therefore free of
repetitions, and holds what it held at the start and ids of downloaded spots.
-/
namespace TaiwanSpots.Client
open DocumentStore Runs FavoriteButton

theorem stored_eq (db : Firestore) (uid : String) :
    stored db uid =
      ((accounts db uid).bind fun d => d.strings "favoriteSpots").getD [] := by
  simp only [stored, accounts]
  cases db.lookup (userRef uid) <;> rfl

theorem stored_insert (db : Firestore) (uid uid' : String) (user : User) :
    stored (db.insert (userRef uid) user.dictionary) uid' =
      if uid' = uid then [] else stored db uid' := by
  rw [stored_eq, stored_eq, accounts_insert_user]
  split_ifs <;> rfl

theorem stored_updateData_image (db : Firestore) (uid url uid' : String) :
    stored ((db.updateData (userRef uid) (profileImageData url)).getD db) uid' =
      stored db uid' := by
  rw [stored_eq, stored_eq]
  exact congrArg (fun ids => Option.getD ids []) (field_updateData rfl Any.asStrings uid uid')

/-- What an app shows and is going to write. -/
structure Sourced (P : Spot → Prop) (known : String → String → Prop) (app : App) : Prop where
  pages : app.tabs.pages.Only P ∧ app.tabs.Fetching
  taps : ∀ uid, ∀ tap ∈ app.tabs.device.taps, tap.uid = uid →
    tap.stage.Carries (Clean (known uid))
  drafted : Drafted app
  uploads : ∀ upload ∈ app.uploads, ∀ d, upload.stage = .updateData d →
    ∃ url, d = profileImageData url

/-- What the database holds. -/
structure Supplied (P : Spot → Prop) (known : String → String → Prop) (db : Firestore) : Prop where
  spots : StoresOnly P db
  stored : ∀ uid, Clean (known uid) (stored db uid)

section
variable {P : Spot → Prop} {known : String → String → Prop} {characters : String → ℕ}
  {s t : Firestore × App}

/-- A heart writes arrays that it has read, with the id of the spot in the cell. -/
theorem device_supplied (hP : ∀ uid spot, P spot → known uid spot.id)
    (hpages : s.2.tabs.pages.Only P)
    (htaps : ∀ uid, ∀ tap ∈ s.2.tabs.device.taps, tap.uid = uid →
      tap.stage.Carries (Clean (known uid)))
    (hstored : ∀ uid, Clean (known uid) (stored s.1 uid)) {e : FavoriteButton.Event}
    (h : step characters s (.tabs (.device e)) = some t) (uid : String) :
    CleanArrays (known uid) uid (t.1, t.2.tabs.device) := by
  obtain ⟨⟨db, d⟩, hd, heq⟩ := Option.map_eq_some_iff.mp (tabs_of_step h)
  obtain ⟨rfl, htabs⟩ := Prod.mk.inj heq
  rw [← htabs]
  refine step_cleanArrays ⟨hstored uid, htaps uid⟩ (fun id hadds => ?_) hd
  cases e with
  | didGetDocument i =>
    obtain ⟨tap, cell, -, -, -, hcell, rfl⟩ := hadds
    exact hP uid cell.spot (hpages.cell _ _ hcell)
  | cellForItemAt | favoriteButtonDidTap | getDocument | updateData | didUpdateData | reloadData =>
    cases hadds

theorem app_supplied {κ : Type*} {k : κ} {db : Firestore} {app : App} {e : Event}
    (hP : ∀ uid spot, P spot → known uid spot.id) (hdb : Supplied P known db)
    (happ : Sourced P known app) {t : Firestore × App}
    (h : appProcess characters k db app e = some t) :
    Supplied P known t.1 ∧ Sourced P known t.2 := by
  obtain ⟨hspots, hpages⟩ := app_only hdb.spots happ.pages h
  simp only [appProcess] at h
  split_ifs at h with he
  have hdrafted := step_drafted happ.drafted h
  have huploads := (uploads_cases h).forall_mem happ.uploads (by simp)
    fun _ _ _ hstage => hstage
  suffices hclean : ∀ uid, CleanArrays (known uid) uid (t.1, t.2.tabs.device) from
    ⟨⟨hspots, fun uid => (hclean uid).stored⟩, hpages, fun uid => (hclean uid).taps, hdrafted,
      huploads⟩
  have hsame : ∀ uid, CleanArrays (known uid) uid (db, app.tabs.device) := fun uid =>
    ⟨hdb.stored uid, happ.taps uid⟩
  cases step_cases h with
  | invalidEmail | stepOne | shortPassword | stepTwo | loginButtonDidTap | notSignedIn
  | nothingPicked | didFinishPickingMedia | didPutData | didDownloadURL | noURL =>
    exact hsame
  | didSignIn => exact fun uid => ⟨(hsame uid).stored, (hsame uid).taps⟩
  | profile hprofile hstep =>
    cases hstep with
    | write => cases hprofile
    | setupData | signOut | signIn | getDocument | didGetDocument | didSetImage =>
      exact fun uid => ⟨(hsame uid).stored, (hsame uid).taps⟩
  | registration hstep =>
    cases hstep with
    | @setData i a ok uid' userDict ha hstage =>
      obtain ⟨user, rfl⟩ := happ.drafted a (List.mem_of_getElem? ha) uid' userDict hstage
      refine fun uid => ⟨?_, (hsame uid).taps⟩
      cases ok with
      | false => exact hdb.stored uid
      | true =>
        simp only [if_true, stored_insert]
        split_ifs
        · exact ⟨List.nodup_nil, by simp⟩
        · exact hdb.stored uid
    | finishButtonDidTap | created | refused | didCreateUser | didSetData =>
      exact fun uid => ⟨(hsame uid).stored, (hsame uid).taps⟩
  | @updateData i ok upload d hupload hstage =>
    obtain ⟨url, rfl⟩ := happ.uploads upload (List.mem_of_getElem? hupload) d hstage
    refine fun uid => ⟨?_, (hsame uid).taps⟩
    cases ok with
    | false => exact hdb.stored uid
    | true =>
      simp only [if_true, stored_updateData_image]
      exact hdb.stored uid
  | tabs htabs hstep =>
    cases hstep with
    | signOut | signIn => cases htabs
    | write => cases he
    | device hdevice => exact device_supplied hP happ.pages.1 happ.taps hdb.stored h
    | didGetDocuments | reloadData | noCity | openCity | didSelectSpot | openFavorites | city
    | favorites => exact fun uid => ⟨(hsame uid).stored, (hsame uid).taps⟩

theorem rebuild_supplied {o : Outcomes} {count : ℤ} {db : Firestore} {p : Rebuild}
    {e : TaiwanSpots.Event} {t : Firestore × Rebuild}
    (hspots : ∀ spot, Downloaded o count spot → P spot) (hdb : Supplied P known db)
    (hp : p.Tidy ∧ p.PostsOnly P count) (h : TaiwanSpots.step o (db, p) e = some t) :
    Supplied P known t.1 ∧ t.2.Tidy ∧ t.2.PostsOnly P count := by
  obtain ⟨hstore, hposts⟩ := step_postsOnly hspots hdb.spots hp.2 h
  obtain ⟨htidy, husers⟩ := step_tidy (s := (db, p)) hp.1 h
  refine ⟨⟨hstore, fun uid => ?_⟩, htidy, hposts⟩
  have hsame : stored t.1 uid = stored db uid := by rw [stored, stored, husers (userRef uid) rfl]
  exact hsame ▸ hdb.stored uid

end

section
variable {ι κ : Type*} [DecidableEq ι] [DecidableEq κ] {o : ι → Outcomes}
  {characters : String → ℕ} {user : ι → User} {count : ι → ℤ}
  {s t : Groups Firestore ι Rebuild κ App} {es : List ((ι × TaiwanSpots.Event) ⊕ (κ × Event))}

/-- However rebuilds and apps meet, and whatever fails: no stored list of favourites names
a spot twice, and what it names it named at the start, or it is a spot that some rebuild has
downloaded. -/
theorem stored_favorites_downloaded {currentUser : κ → Option String}
    (hempty : ∀ ref : DocumentReference, ref.collection.root = .spots → s.store.lookup ref = none)
    (hstart : ∀ uid, (stored s.store uid).Nodup)
    (hp : ∀ i, apiButtonDidTap (user i) (count i) = some (s.first i))
    (hlaunch : ∀ k, s.second k = launch (currentUser k))
    (hr : run (system o characters) s es = some t) (uid : String) :
    (stored t.store uid).Nodup ∧ ∀ id ∈ stored t.store uid,
      id ∈ stored s.store uid ∨ ∃ i spot, Downloaded (o i) (count i) spot ∧ spot.id = id := by
  set P : Spot → Prop := fun spot => ∃ i, Downloaded (o i) (count i) spot with hP
  set known : String → String → Prop := fun uid id => id ∈ stored s.store uid ∨
    ∃ i spot, Downloaded (o i) (count i) spot ∧ spot.id = id with hknown
  have hsound : s.Sound (Supplied P known) (fun i p => p.Tidy ∧ p.PostsOnly P (count i))
      (fun _ => Sourced P known) := by
    refine ⟨⟨fun ref data href hdoc => ?_, fun uid => ⟨hstart uid, fun id hid => .inl hid⟩⟩,
      fun i => ?_, fun k => ?_⟩
    · rw [hempty ref href] at hdoc
      cases hdoc
    · rw [start_of_didTap (hp i)]
      exact ⟨by simp [Rebuild.Tidy], rfl, by simp⟩
    · rw [hlaunch k]
      exact ⟨⟨launch_only _, launch_fetching _⟩, fun _ => List.forall_mem_nil _,
        List.forall_mem_nil _, List.forall_mem_nil _⟩
  have hend : t.Sound (Supplied P known) (fun i p => p.Tidy ∧ p.PostsOnly P (count i))
      (fun _ => Sourced P known) := by
    refine sound_of_run ?_ ?_ hsound hr
    · exact fun i db p e m hdb hp h => rebuild_supplied (fun spot hspot => ⟨i, hspot⟩) hdb hp h
    · exact fun k db app e m hdb happ h =>
        app_supplied (fun uid spot hspot => .inr (hspot.imp fun i hi => ⟨spot, hi, rfl⟩)) hdb
          happ h
  exact ⟨(hend.store.stored uid).nodup, (hend.store.stored uid).known⟩

end

/-- The spot that a rebuild has written is loaded, shown in a cell and made a favourite. -/
def sampleFavorite : List ((Unit × TaiwanSpots.Event) ⊕ (Unit × Event)) :=
  sampleLoad ++ [.cellForItemAt 0 (.city 0) 0, .favoriteButtonDidTap 0, .getDocument 0 true,
    .didGetDocument 0, .updateData 0 true].map fun e => .inr ((), .tabs (.device e))

/-- The account `u` is registered and has no favourites. -/
def sampleAccount : Firestore :=
  (∅ : Firestore).insert (userRef "u") (User.init "a@b.tw" "A" "secret").dictionary

theorem stored_favorites_downloaded_sample :
    ∃ t, run (system (fun _ => sampleOutcomes []) String.length)
        ⟨sampleAccount, fun _ => ⟨1, .removeSpots, ⟨0, 0⟩, []⟩, fun _ => launch (some "u")⟩
        sampleFavorite = some t ∧
      ∃ id ∈ stored t.store "u", ∃ spot, Downloaded (sampleOutcomes []) 1 spot ∧ spot.id = id := by
  have hnone : ∀ uid, stored sampleAccount uid = [] := fun uid => by
    rw [sampleAccount, stored_insert]
    split_ifs <;> rfl
  refine ⟨_, rfl, "a", List.mem_singleton_self _, ?_⟩
  have h := @stored_favorites_downloaded Unit Unit _ _ (fun _ => sampleOutcomes []) String.length
    (fun _ => sampleAdmin) (fun _ => 1) ⟨sampleAccount, fun _ => ⟨1, .removeSpots, ⟨0, 0⟩, []⟩,
      fun _ => launch (some "u")⟩ _ sampleFavorite (fun _ => some "u")
    (fun ref href => AList.lookup_insert_ne fun heq => by cases heq ▸ href)
    (fun uid => by simp [hnone])
    (fun _ => rfl) (fun _ => rfl) rfl "u"
  rcases h.2 "a" (List.mem_singleton_self _) with hstart | ⟨_, hspot⟩
  · rw [hnone] at hstart
    cases hstart
  · exact hspot

end TaiwanSpots.Client
