import TaiwanSpots.Journal
import TaiwanSpots.WholeSystem

/-!
# What the documents of the accounts are made of

Apps write the documents of accounts through the callbacks of taps, registrations and
uploads, and in no other way. Each write that an app issues is in flight until the server
carries it out or refuses it. The documents are therefore what the writes that were
carried out have made of them, whatever rebuilds and other apps do.
-/
namespace TaiwanSpots.Client
open Runs

/-- The server carries out a write. An update of a missing document is refused. -/
def Write.perform (db : Firestore) : Write → Firestore
  | .setData ref data => db.insert ref data
  | .updateData ref data => (db.updateData ref data).getD db

/-- The write that the callback of `downloadURL` has issued. -/
def issuedByUpload (upload : Upload) : List Write :=
  match upload.stage with
  | .updateData dictionary => [.updateData (userRef upload.uid) dictionary]
  | _ => []

/-- The writes of an app that wait for the server. -/
def App.inFlight (s : App) : Multiset Write :=
  ↑(s.tabs.device.taps.flatMap issuedByTap) + ↑(s.registration.attempts.flatMap issuedByAttempt) +
    ↑(s.uploads.flatMap issuedByUpload)

/-- The write that the server carries out in an event. -/
def carried (s : App) : Event → Option Write
  | .tabs (.device (.updateData i true)) =>
    s.tabs.device.taps[i]?.bind fun tap => (issuedByTap tap).head?
  | .registration (.setData i true) =>
    s.registration.attempts[i]?.bind fun a => (issuedByAttempt a).head?
  | .updateData i true => s.uploads[i]?.bind fun upload => (issuedByUpload upload).head?
  | _ => none

/-- The journal of an app. -/
def journal : Journal Firestore App Event Write :=
  ⟨App.writes, App.inFlight, carried, Write.perform⟩

theorem accounts_insert {db db' : Firestore} (h : accounts db = accounts db')
    (ref : DocumentReference) (data : Dictionary) :
    accounts (db.insert ref data) = accounts (db'.insert ref data) := by
  funext uid
  by_cases hu : userRef uid = ref
  · subst hu
    simp [accounts]
  · simp only [accounts, AList.lookup_insert_ne hu]
    exact congrFun h uid

theorem accounts_updateData_of_ne {db : Firestore} {ref : DocumentReference} (data : Dictionary)
    (h : ∀ uid, userRef uid ≠ ref) : accounts ((db.updateData ref data).getD db) = accounts db := by
  cases hd : db.lookup ref with
  | none => simp [Firestore.updateData, hd]
  | some d =>
    funext uid
    simp [Firestore.updateData, hd, accounts, AList.lookup_insert_ne (h uid)]

theorem accounts_insert_user (db : Firestore) (uid uid' : String) (d : Dictionary) :
    accounts (db.insert (userRef uid) d) uid' =
      if uid' = uid then some d else accounts db uid' := by
  by_cases hu : uid' = uid
  · subst hu
    simp [accounts]
  · have hne : userRef uid' ≠ userRef uid := by simpa [userRef] using hu
    simp [accounts, hu, AList.lookup_insert_ne hne]

theorem accounts_updateData_user (db : Firestore) (uid uid' : String) (d : Dictionary) :
    accounts ((db.updateData (userRef uid) d).getD db) uid' =
      if uid' = uid then (accounts db uid).map fun old => old.merge d else accounts db uid' := by
  cases hdoc : db.lookup (userRef uid) with
  | none =>
    have hold : accounts db uid = none := hdoc
    split_ifs with hu
    · simp [Firestore.updateData, hdoc, hold, hu]
    · simp [Firestore.updateData, hdoc]
  | some old =>
    have hold : accounts db uid = some old := hdoc
    simp only [Firestore.updateData, hdoc, Option.map_some, Option.getD_some,
      accounts_insert_user, hold]

/-- An update leaves every field that it does not name. -/
theorem field_updateData {α : Type*} {db : Firestore} {d : Dictionary} {name : String}
    (h : d.lookup name = none) (as : Any → Option α) (uid uid' : String) :
    ((accounts ((db.updateData (userRef uid) d).getD db) uid').bind fun d =>
        (d.lookup name).bind as) =
      (accounts db uid').bind fun d => (d.lookup name).bind as := by
  rw [accounts_updateData_user]
  split_ifs with hu
  · subst hu
    cases accounts db uid' with
    | none => rfl
    | some old => simp [Dictionary.lookup_merge, h]
  · rfl

/-- What a write makes of the accounts depends on the accounts only. -/
theorem journal_actsOn : journal.ActsOn accounts := by
  intro db db' w h
  show accounts (w.perform db) = accounts (w.perform db')
  cases w with
  | setData ref data => exact accounts_insert h ref data
  | updateData ref data =>
    obtain ⟨c, id⟩ := ref
    cases c with
    | users =>
      have hid : db.lookup ⟨.users, id⟩ = db'.lookup ⟨.users, id⟩ := congrFun h id
      simp only [Write.perform, Firestore.updateData, hid]
      cases db'.lookup ⟨.users, id⟩ with
      | none => exact h
      | some d => exact accounts_insert h _ _
    | spots | cities | sub =>
      simp only [Write.perform]
      rw [accounts_updateData_of_ne data (by simp [userRef]),
        accounts_updateData_of_ne data (by simp [userRef])]
      exact h

section
variable {s t : Firestore × App}

/-- A tap moves on to a stage, and another write or none is in flight for it. -/
theorem covered_setStage {d : FavoriteButton.Device} {i : ℕ} {tap : FavoriteButton.Tap}
    (htap : d.taps[i]? = some tap) (stage : FavoriteButton.Stage) {w : Option Write}
    {new : List Write}
    (h : Covered (↑(issuedByTap tap)) (↑(issuedByTap { tap with stage })) w new) :
    Covered (↑(d.taps.flatMap issuedByTap)) (↑((d.setStage i stage).taps.flatMap issuedByTap))
      w new :=
  covered_modify htap h

theorem issuedByTabs_setStage {tabs : Screens.Tabs} {d : FavoriteButton.Device} {i : ℕ}
    {tap : FavoriteButton.Tap} (htap : d.taps[i]? = some tap) (stage : FavoriteButton.Stage) :
    issuedByTabs { tabs with device := d.setStage i stage } (.device (.didGetDocument i)) =
      issuedByTap { tap with stage } := by
  simp [issuedByTabs, FavoriteButton.Device.setStage, htap]

/-- What was in flight is carried out. -/
theorem covered_carried (w : Write) : Covered {w} 0 (some w) [] := by simp [Covered]

/-- What was in flight is refused. -/
theorem covered_refused (w : Write) : Covered {w} 0 none [] := by simp [Covered]

/-- What is issued is in flight. -/
theorem covered_issued (new : List Write) : Covered 0 (↑new) none new := by simp [Covered]

theorem perform_update (db : Firestore) (uid : String) (ids : Option (List String)) :
    (FavoriteButton.update db uid ids true).1 =
      (Write.updateData (userRef uid) (FavoriteButton.favoriteData ids)).perform db := by
  simp only [FavoriteButton.update, if_true, Write.perform]
  cases db.updateData (userRef uid) (FavoriteButton.favoriteData ids) <;> rfl

/-- The write that a device carries out in an event. -/
def carriedByDevice (d : FavoriteButton.Device) : FavoriteButton.Event → Option Write
  | .updateData i true => d.taps[i]?.bind fun tap => (issuedByTap tap).head?
  | _ => none

/-- The write that a registration carries out in an event. -/
def carriedByRegistration (s : Registration.Flow) : Registration.Event → Option Write
  | .setData i true => s.attempts[i]?.bind fun a => (issuedByAttempt a).head?
  | _ => none

theorem device_covered {s t : Firestore × FavoriteButton.Device} {e : FavoriteButton.Event}
    (tabs : Screens.Tabs) (h : FavoriteButton.Step s e t) :
    t.1 = (carriedByDevice s.2 e).elim s.1 (fun w => w.perform s.1) ∧
    Covered (↑(s.2.taps.flatMap issuedByTap)) (↑(t.2.taps.flatMap issuedByTap))
      (carriedByDevice s.2 e) (issuedByTabs { tabs with device := t.2 } (.device e)) := by
  cases h with
  | cellForItemAt hspot howner => exact ⟨rfl, .refl _⟩
  | signedOut hcell huser => exact ⟨rfl, .refl _⟩
  | signedIn hcell huser => exact ⟨rfl, covered_concat rfl⟩
  | getDocument htap hstage =>
    exact ⟨rfl, covered_setStage htap _ (by simpa [issuedByTap, hstage] using .refl _)⟩
  | @didGetDocument i tap reply cell htap hstage hcell =>
    refine ⟨rfl, covered_setStage htap _ ?_⟩
    have hold : issuedByTap tap = [] := by simp [issuedByTap, hstage]
    rw [issuedByTabs_setStage (d := { s.2 with
      pages := (FavoriteButton.didGetDocument s.2.pages tap.adding cell reply).1 }) htap, hold]
    exact covered_issued _
  | @updateData i ok tap dictionary ids htap hstage =>
    have hissued : issuedByTap tap =
        [.updateData (userRef tap.uid) (FavoriteButton.favoriteData ids)] := by
      simp [issuedByTap, hstage]
    cases ok with
    | true =>
      have hcarried : carriedByDevice s.2 (.updateData i true) =
          some (.updateData (userRef tap.uid) (FavoriteButton.favoriteData ids)) := by
        simp [carriedByDevice, htap, hissued]
      rw [hcarried]
      refine ⟨perform_update _ _ _, covered_setStage htap _ ?_⟩
      rw [hissued]
      exact covered_carried _
    | false =>
      refine ⟨rfl, covered_setStage htap _ ?_⟩
      rw [hissued]
      exact covered_refused _
  | @didUpdateData i tap ok ids cell htap hstage hcell =>
    refine ⟨rfl, covered_setStage htap _ ?_⟩
    have hold : issuedByTap tap = [] := by simp [issuedByTap, hstage]
    rcases FavoriteButton.didUpdateData_stage s.2.pages s.2.hud tap.adding cell ok ids with
        hnext | hnext <;> rw [hold, hnext] <;> exact .refl _
  | reloadData htap hstage hcell =>
    exact ⟨rfl, covered_setStage htap _ (by simpa [issuedByTap, hstage] using .refl _)⟩

theorem didCreateUser_attempts (s : Registration.Flow) (a : Registration.Attempt) (ok : Bool) :
    (Registration.didCreateUser s a ok).1.attempts = s.attempts := by
  unfold Registration.didCreateUser
  split_ifs
  · split <;> rfl
  · rfl

theorem issuedByRegistration_setStage {s : Registration.Flow} {i : ℕ} {a : Registration.Attempt}
    (ha : s.attempts[i]? = some a) (stage : Registration.Stage) :
    issuedByRegistration (s.setStage i stage) (.didCreateUser i) =
      issuedByAttempt { a with stage } := by
  simp [issuedByRegistration, Registration.Flow.setStage, ha]

theorem registration_covered {s t : Firestore × Registration.Flow} {e : Registration.Event}
    (h : Registration.Step s e t) :
    t.1 = (carriedByRegistration s.2 e).elim s.1 (fun w => w.perform s.1) ∧
    Covered (↑(s.2.attempts.flatMap issuedByAttempt)) (↑(t.2.attempts.flatMap issuedByAttempt))
      (carriedByRegistration s.2 e) (issuedByRegistration t.2 e) := by
  cases h with
  | finishButtonDidTap huser => exact ⟨rfl, covered_concat rfl⟩
  | created ha hstage huid =>
    exact ⟨rfl, covered_modify ha (by simpa [issuedByAttempt, hstage] using .refl _)⟩
  | refused ha hstage =>
    exact ⟨rfl, covered_modify ha (by simpa [issuedByAttempt, hstage] using .refl _)⟩
  | @didCreateUser i a ok ha hstage =>
    have hold : issuedByAttempt a = [] := by simp [issuedByAttempt, hstage]
    have hattempts := didCreateUser_attempts s.2 a ok
    refine ⟨rfl, ?_⟩
    rw [issuedByRegistration_setStage (hattempts ▸ ha)]
    simp only [Registration.Flow.setStage, hattempts]
    refine covered_modify ha ?_
    rw [hold]
    exact covered_issued _
  | @setData i a ok uid userDict ha hstage =>
    have hissued : issuedByAttempt a = [.setData (userRef uid) userDict] := by
      simp [issuedByAttempt, hstage]
    cases ok with
    | true =>
      have hcarried : carriedByRegistration s.2 (.setData i true) =
          some (.setData (userRef uid) userDict) := by
        simp [carriedByRegistration, ha, hissued]
      rw [hcarried]
      refine ⟨rfl, covered_modify ha ?_⟩
      rw [hissued]
      exact covered_carried _
    | false =>
      refine ⟨rfl, covered_modify ha ?_⟩
      rw [hissued]
      exact covered_refused _
  | didSetData ha hstage =>
    exact ⟨rfl, covered_modify ha (by simpa [issuedByAttempt, hstage] using .refl _)⟩

theorem carried_registration (s : App) (e : Registration.Event) :
    carried s (.registration e) = carriedByRegistration s.flow e := by
  cases e <;> first | rfl | (rename_i ok; cases ok <;> rfl)

theorem carried_device (s : App) (e : FavoriteButton.Event) :
    carried s (.tabs (.device e)) = carriedByDevice s.tabs.device e := by
  cases e <;> first | rfl | (rename_i ok; cases ok <;> rfl)

/-- What an event of the app itself does: its documents are changed by the write that it
carries out, and what it issues is in flight afterwards. -/
theorem step_covered {count : String → ℕ} {e : Event} (he : ofApp e = true)
    (h : step count s e = some t) :
    t.1 = (carried s.2 e).elim s.1 (fun w => w.perform s.1) ∧
    ∃ new, t.2.writes = s.2.writes ++ new ∧
      Covered s.2.inFlight t.2.inFlight (carried s.2 e) new := by
  cases step_cases h with
  | invalidEmail | stepOne | shortPassword | stepTwo | loginButtonDidTap | notSignedIn
  | didSignIn | nothingPicked => exact ⟨rfl, [], (List.append_nil _).symm, .refl _⟩
  | @registration e r hstep =>
    obtain ⟨hdb, hcovered⟩ := registration_covered hstep
    rw [carried_registration]
    exact ⟨hdb, _, rfl, (hcovered.add_left _).add_right _⟩
  | profile hprofile hstep =>
    cases hstep with
    | write => cases hprofile
    | setupData | signOut | signIn | getDocument | didGetDocument | didSetImage =>
      exact ⟨rfl, [], (List.append_nil _).symm, .refl _⟩
  | didFinishPickingMedia huser =>
    exact ⟨rfl, [], (List.append_nil _).symm, (covered_concat rfl).add_left _⟩
  | didPutData hupload hstage =>
    refine ⟨rfl, [], (List.append_nil _).symm, (covered_modify hupload ?_).add_left _⟩
    simp only [issuedByUpload, hstage]
    split_ifs <;> exact .refl _
  | didDownloadURL hupload hstage =>
    refine ⟨rfl, _, rfl, (covered_modify hupload ?_).add_left _⟩
    simp only [issuedByUpload, hstage]
    exact covered_issued _
  | noURL hupload hstage =>
    refine ⟨rfl, [], (List.append_nil _).symm, (covered_modify hupload ?_).add_left _⟩
    simp only [issuedByUpload, hstage]
    exact .refl _
  | @updateData i ok upload dictionary hupload hstage =>
    have hissued : issuedByUpload upload = [.updateData (userRef upload.uid) dictionary] := by
      simp [issuedByUpload, hstage]
    cases ok with
    | true =>
      have hcarried : carried s.2 (.updateData i true) =
          some (.updateData (userRef upload.uid) dictionary) := by
        simp [carried, hupload, hissued]
      rw [hcarried]
      refine ⟨rfl, [], (List.append_nil _).symm, (covered_modify hupload ?_).add_left _⟩
      rw [hissued]
      exact covered_carried _
    | false =>
      refine ⟨rfl, [], (List.append_nil _).symm, (covered_modify hupload ?_).add_left _⟩
      rw [hissued]
      exact covered_refused _
  | tabs htabs hstep =>
    cases hstep with
    | write => cases he
    | device hdevice =>
      obtain ⟨hdb, hcovered⟩ := device_covered s.2.tabs hdevice
      rw [carried_device]
      exact ⟨hdb, _, rfl, (hcovered.add_right _).add_right _⟩
    | signOut | signIn | didGetDocuments | reloadData | noCity | openCity | didSelectSpot
    | openFavorites | city | favorites => exact ⟨rfl, [], rfl, .refl _⟩

theorem journal_kept {κ : Type*} (characters : String → ℕ) :
    journal.Kept accounts (appProcess (κ := κ) characters) := by
  intro _ db app e t h
  simp only [appProcess] at h
  split_ifs at h with he
  obtain ⟨hdb, new, hnew, hcovered⟩ := step_covered he h
  exact ⟨congrArg accounts hdb, new, hnew, hcovered⟩

end

section
variable {ι κ : Type*} [DecidableEq ι] [DecidableEq κ]

/-- Any number of rebuilds and of apps over one database. -/
def system (o : ι → Outcomes) (characters : String → ℕ) (s : Groups Firestore ι Rebuild κ App) :
    (ι × TaiwanSpots.Event) ⊕ (κ × Event) → Option (Groups Firestore ι Rebuild κ App) :=
  beside (rebuildProcess o) (appProcess characters) s

/-- The writes that the server carries out in a run, each with the app that has issued it. -/
def written (o : ι → Outcomes) (characters : String → ℕ) (s : Groups Firestore ι Rebuild κ App)
    (es : List ((ι × TaiwanSpots.Event) ⊕ (κ × Event))) : List (κ × Write) :=
  noted (system o characters) journal.note s [] es

variable {o : ι → Outcomes} {characters : String → ℕ} {user : ι → User} {count : ι → ℤ}
  {s t : Groups Firestore ι Rebuild κ App} {es : List ((ι × TaiwanSpots.Event) ⊕ (κ × Event))}

/-- Whatever rebuilds and apps do, and whatever fails or overtakes what: the documents of
the accounts are what the writes that were carried out have made of them. An app has issued
all of its writes that were carried out, and no write is carried out twice or is still in
flight. -/
theorem documents_from_writes {currentUser : κ → Option String}
    (hp : ∀ i, apiButtonDidTap (user i) (count i) = some (s.first i))
    (hlaunch : ∀ k, s.second k = launch (currentUser k))
    (hr : run (system o characters) s es = some t) :
    accounts t.store = accounts (journal.replay s.store (written o characters s es)) ∧
    ∀ k, ↑(Journal.entriesOf k (written o characters s es)) + (t.second k).inFlight ≤
      (↑(t.second k).writes : Multiset Write) := by
  have htidy : ∀ i, (s.first i).Tidy := fun i => by simp [start_of_didTap (hp i), Rebuild.Tidy]
  have haccounts := Journal.accounts_of_run journal_actsOn (journal_kept characters)
    (rebuild_leavesAlone o) htidy hr
  refine ⟨haccounts.store, fun k => ?_⟩
  obtain ⟨new, hnew, hle⟩ := haccounts.issued k
  rw [hlaunch k] at hnew hle
  have hwrites : (t.second k).writes = new := hnew
  have hnone : journal.inFlight (launch (currentUser k)) = 0 := rfl
  rw [hnone, zero_add] at hle
  rw [hwrites]
  exact hle

end

/-- The document of a registration that meets a rebuild is the one write of its app. -/
theorem documents_from_writes_sample :
    ∃ t, run (system (fun _ => sampleOutcomes []) String.length)
        ⟨sampleDatabase "a" "臺東縣", fun _ => ⟨1, .removeSpots, ⟨0, 0⟩, []⟩, fun _ => launch none⟩
        sampleActivity = some t ∧
      (accounts t.store "u").isSome = true ∧ (t.second ()).writes.length = 1 ∧
      accounts t.store = accounts (journal.replay (sampleDatabase "a" "臺東縣")
        (written (fun _ => sampleOutcomes []) String.length
          ⟨sampleDatabase "a" "臺東縣", fun _ => ⟨1, .removeSpots, ⟨0, 0⟩, []⟩,
            fun _ => launch none⟩ sampleActivity)) := by
  have h := @documents_from_writes Unit Unit _ _ (fun _ => sampleOutcomes []) String.length
    (fun _ => sampleAdmin) (fun _ => 1) ⟨sampleDatabase "a" "臺東縣",
      fun _ => ⟨1, .removeSpots, ⟨0, 0⟩, []⟩, fun _ => launch none⟩ _ sampleActivity
    (fun _ => none) (fun _ => rfl) (fun _ => rfl) rfl
  exact ⟨_, rfl, rfl, rfl, h.1⟩

end TaiwanSpots.Client
