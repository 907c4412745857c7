import TaiwanSpots.AdminButton
import TaiwanSpots.AvatarUploads

/-!
# Who changes what

Apps start rebuilds with the button of their profile pages, which tests the flag of the
page's user. The flag comes from the document of an account that was signed in on the app,
and no app writes this field of a document. The other documents that an app writes are
those of accounts that were signed in on it.
-/
namespace TaiwanSpots.Administration
open DocumentStore Runs Client

/-- Apps, and the rebuilds that their buttons have started. -/
structure State (ι κ : Type*) where
  store : Firestore
  apps : κ → App
  rebuilds : ι → Option Rebuild

/-- A tap on the button of an app starts the rebuild `i`, if it starts one. `didSignIn` is
the callback of a sign-in with Google. -/
inductive Event (ι κ : Type*) where
  | app (k : κ) (e : Client.Event)
  | didSignIn (k : κ) (uid : String)
  | apiButtonDidTap (k : κ) (i : ι) (text : Option String)
  | rebuild (i : ι) (e : TaiwanSpots.Event)

section
variable {ι κ : Type*} [DecidableEq ι] [DecidableEq κ]

def step (o : ι → Outcomes) (characters : String → ℕ) (s : State ι κ) :
    Event ι κ → Option (State ι κ)
  | .app k e => (appProcess characters k s.store (s.apps k) e).map fun r =>
      { s with store := r.1, apps := Function.update s.apps k r.2 }
  | .didSignIn k uid => some { s with
      apps := Function.update s.apps k ((s.apps k).setAuth (some uid) (s.apps k).session.hud) }
  | .apiButtonDidTap k i text =>
    if (s.rebuilds i).isSome then none
    else some { s with
      rebuilds := Function.update s.rebuilds i (didTap text (s.apps k).profile.user) }
  | .rebuild i e => (s.rebuilds i).bind fun p =>
      (TaiwanSpots.step (o i) (s.store, p) e).map fun r =>
        { s with store := r.1, rebuilds := Function.update s.rebuilds i (some r.2) }

/-- The account is signed in on the app at some time of the run. -/
def Used (o : ι → Outcomes) (characters : String → ℕ) (s : State ι κ) (es : List (Event ι κ))
    (k : κ) (uid : String) : Prop :=
  ∃ pre post m, es = pre ++ post ∧ run (step o characters) s pre = some m ∧
    (m.apps k).currentUser = some uid

end

/-- A document that the profile page has asked for is one of an account that was used, and
says that this is an admin only if it is one. -/
def Asked (used admin : String → Prop) (setup : Profile.Setup) : Prop :=
  used setup.uid ∧ ∀ d, setup.stage = .didGetDocument (.snapshot (some d)) →
    d.bool "isAdmin" = some true → admin setup.uid

/-- The app works for accounts that were used on it, and its flag is that of an admin. -/
structure Sanctioned (used admin : String → Prop) (app : App) : Prop where
  taps : ∀ tap ∈ app.tabs.device.taps, used tap.uid
  attempts : ∀ a ∈ app.registration.attempts, ∀ uid d, a.stage = .setData uid d →
    used uid ∧ ∃ user : User, d = user.dictionary
  uploads : ∀ upload ∈ app.uploads, used upload.uid ∧
    ∀ d, upload.stage = .updateData d → ∃ url, d = profileImageData url
  setups : ∀ setup ∈ app.profile.setups, Asked used admin setup
  flag : app.profile.user.isAdmin = true → ∃ uid, used uid ∧ admin uid

section
variable {used admin : String → Prop}

theorem Sanctioned.mono {used' : String → Prop} {app : App} (h : Sanctioned used admin app)
    (hused : ∀ uid, used uid → used' uid) : Sanctioned used' admin app where
  taps tap htap := hused _ (h.taps tap htap)
  attempts a ha uid d hstage := ⟨hused _ (h.attempts a ha uid d hstage).1,
    (h.attempts a ha uid d hstage).2⟩
  uploads upload hupload := ⟨hused _ (h.uploads upload hupload).1, (h.uploads upload hupload).2⟩
  setups setup hsetup := ⟨hused _ (h.setups setup hsetup).1, (h.setups setup hsetup).2⟩
  flag hflag := (h.flag hflag).imp fun _ => And.imp_left (hused _)

/-- A tap is made for the account that is signed in. -/
theorem device_taps {s t : Firestore × FavoriteButton.Device} {e : FavoriteButton.Event}
    (hs : ∀ tap ∈ s.2.taps, used tap.uid)
    (huser : ∀ uid, s.2.currentUser = some uid → used uid) (h : FavoriteButton.Step s e t) :
    ∀ tap ∈ t.2.taps, used tap.uid := by
  have hmodify : ∀ (i : ℕ) (stage : FavoriteButton.Stage),
      ∀ tap ∈ s.2.taps.modify i fun tap => { tap with stage }, used tap.uid := fun i stage =>
    forall_mem_modify hs fun tap htap => hs tap (List.mem_of_getElem? htap)
  cases h with
  | cellForItemAt | signedOut => exact hs
  | signedIn hcell hsigned => exact forall_mem_concat hs (huser _ hsigned)
  | getDocument | didGetDocument | updateData | didUpdateData | reloadData => exact hmodify _ _

/-- `setupData` asks for the account that is signed in. -/
theorem asked_setupData {s : Profile.Session} (hs : ∀ setup ∈ s.setups, Asked used admin setup)
    (huser : ∀ uid, s.currentUser = some uid → used uid) :
    ∀ setup ∈ (Profile.setupData s).setups, Asked used admin setup := by
  unfold Profile.setupData
  cases hcurrent : s.currentUser with
  | none => exact hs
  | some uid => exact forall_mem_concat hs ⟨huser uid hcurrent, by simp⟩

theorem signIn_sanctioned {s : Profile.Session} {uid : String}
    (hs : ∀ setup ∈ s.setups, Asked used admin setup)
    (hflag : s.user.isAdmin = true → ∃ uid, used uid ∧ admin uid) (huid : used uid)
    (knowsProfile : Bool) :
    (∀ setup ∈ (Profile.signIn s uid knowsProfile).setups, Asked used admin setup) ∧
      ((Profile.signIn s uid knowsProfile).user.isAdmin = true → ∃ uid, used uid ∧ admin uid) := by
  unfold Profile.signIn
  cases knowsProfile with
  | false => exact ⟨hs, hflag⟩
  | true =>
    refine ⟨asked_setupData hs fun uid' hsigned => ?_, hflag⟩
    exact Option.some.inj hsigned ▸ huid

/-- The flag is that of a document that was read, or the one that was there. -/
theorem flag_didGetDocument {s : Profile.Session} {reply : Reply}
    (h : (Profile.didGetDocument s reply).1.user.isAdmin = true) :
    s.user.isAdmin = true ∨ ∃ d, reply = .snapshot (some d) ∧ d.bool "isAdmin" = some true := by
  rcases reply with _ | _ | d
  · exact .inl h
  · exact .inl h
  · rw [Profile.didGetDocument_user, Profile.fillIn_isAdmin] at h
    split_ifs at h
    · cases hfield : d.bool "isAdmin" with
      | none =>
        rw [hfield] at h
        exact .inl h
      | some flag =>
        rw [hfield, Option.getD_some] at h
        exact .inr ⟨d, rfl, by rw [hfield, h]⟩
    · exact .inl h

theorem profile_sanctioned {s t : Firestore × Profile.Session} {e : Profile.Event}
    (hs : ∀ setup ∈ s.2.setups, Asked used admin setup)
    (hflag : s.2.user.isAdmin = true → ∃ uid, used uid ∧ admin uid)
    (hdb : ∀ uid, Profile.isAdmin s.1 uid = some true → admin uid)
    (huser : ∀ uid, s.2.currentUser = some uid → used uid) (he : ofProfile e = true)
    (h : Profile.Step s e t) :
    (∀ setup ∈ t.2.setups, Asked used admin setup) ∧
      (t.2.user.isAdmin = true → ∃ uid, used uid ∧ admin uid) := by
  have hover : ∀ (i : ℕ) (stage : Profile.Stage), (∀ reply, stage ≠ .didGetDocument reply) →
      ∀ setup ∈ s.2.setups.modify i fun setup => { setup with stage }, Asked used admin setup :=
    fun i stage hstage => forall_mem_modify hs fun setup hsetup =>
      ⟨(hs setup (List.mem_of_getElem? hsetup)).1, fun d hd => absurd hd (hstage _)⟩
  cases h with
  | setupData => exact ⟨asked_setupData hs huser, hflag⟩
  | @signOut ok =>
    cases ok with
    | true => exact ⟨hs, fun h => nomatch h⟩
    | false => exact ⟨hs, hflag⟩
  | signIn | write => cases he
  | @getDocument i ok setup hsetup hstage =>
    refine ⟨forall_mem_modify hs fun setup' hsetup' => ?_, hflag⟩
    obtain rfl : setup = setup' := Option.some.inj (hsetup.symm.trans hsetup')
    refine ⟨(hs setup (List.mem_of_getElem? hsetup)).1, fun d hd hadmin => hdb _ ?_⟩
    obtain ⟨-, hdoc⟩ := Firestore.getDocument_eq_some (Profile.Stage.didGetDocument.inj hd)
    rw [Profile.isAdmin, hdoc]
    exact hadmin
  | @didGetDocument i setup reply hsetup hstage =>
    have hstages : ∀ reply', (Profile.didGetDocument s.2 reply).2 ≠ .didGetDocument reply' := by
      intro reply'
      rcases reply with _ | _ | d
      · simp [Profile.didGetDocument]
      · simp [Profile.didGetDocument]
      · simp only [Profile.didGetDocument]
        split <;> simp
    refine ⟨?_, fun h => ?_⟩
    · simp only [Profile.Session.setStage, Profile.didGetDocument_setups]
      exact hover i _ hstages
    · rcases flag_didGetDocument h with hold | ⟨d, rfl, hadmin⟩
      · exact hflag hold
      · obtain ⟨hused, hread⟩ := hs setup (List.mem_of_getElem? hsetup)
        exact ⟨setup.uid, hused, hread d hstage hadmin⟩
  | didSetImage hsetup hstage => exact ⟨hover _ _ (by simp), hflag⟩

variable {characters : String → ℕ} {s t : Firestore × App} {e : Client.Event}

/-- An upload is for the account that was signed in, and writes its address only. -/
theorem uploads_sanctioned {uploads : List Upload} (hs : Sanctioned used admin s.2)
    (huser : ∀ uid, s.2.currentUser = some uid → used uid) (h : Uploads s.2 e uploads) :
    ∀ upload ∈ uploads, used upload.uid ∧
      ∀ d, upload.stage = .updateData d → ∃ url, d = profileImageData url :=
  h.forall_mem hs.uploads (fun uid hsigned => ⟨huser uid hsigned, by simp⟩)
    fun _ _ hupload hstage => ⟨hupload.1, hstage⟩

/-- One event of an app keeps to the accounts that are used before and after it. -/
theorem app_sanctioned (hs : Sanctioned used admin s.2)
    (hdb : ∀ uid, Profile.isAdmin s.1 uid = some true → admin uid)
    (hbefore : ∀ uid, s.2.currentUser = some uid → used uid)
    (hafter : ∀ uid, t.2.currentUser = some uid → used uid)
    (h : Client.step characters s e = some t) : Sanctioned used admin t.2 := by
  have huploads := uploads_sanctioned hs hbefore (uploads_cases h)
  cases Client.step_cases h with
  | invalidEmail | stepOne | shortPassword | stepTwo | loginButtonDidTap | notSignedIn
  | nothingPicked | didFinishPickingMedia | didPutData | didDownloadURL | noURL | updateData =>
    exact ⟨hs.taps, hs.attempts, huploads, hs.setups, hs.flag⟩
  | registration hstep =>
    exact ⟨hs.taps, registration_drafted hs.attempts hbefore hstep, huploads, hs.setups, hs.flag⟩
  | @didSignIn i login uid hlogin =>
    have huid := hafter uid (currentUser_didSignIn _ login uid)
    obtain ⟨hsetups, hflag⟩ := signIn_sanctioned (s := App.session s.2) hs.setups hs.flag huid
      login.knowsProfile
    exact ⟨hs.taps, hs.attempts, huploads, hsetups, hflag⟩
  | profile he hstep =>
    obtain ⟨hsetups, hflag⟩ := profile_sanctioned hs.setups hs.flag hdb hbefore he hstep
    exact ⟨hs.taps, hs.attempts, huploads, hsetups, hflag⟩
  | @tabs e r he hstep =>
    refine ⟨?_, hs.attempts, huploads, hs.setups, hs.flag⟩
    cases hstep with
    | device hdevice => exact device_taps hs.taps hbefore hdevice
    | signOut | signIn | write | didGetDocuments | reloadData | noCity | openCity
    | didSelectSpot | openFavorites | city | favorites => exact hs.taps

/-- A write to the document of an account keeps to the account, and makes no admin. -/
structure Keeps (used : String → Prop) (db db' : Firestore) : Prop where
  admins : ∀ uid, Profile.isAdmin db' uid = some true → Profile.isAdmin db uid = some true
  accounts : ∀ uid, accounts db' uid ≠ accounts db uid → used uid

theorem keeps_updateData {db : Firestore} {uid : String} {d : Dictionary} (huid : used uid)
    (hfield : d.lookup "isAdmin" = none) :
    Keeps used db ((Write.updateData (userRef uid) d).perform db) := by
  refine ⟨fun uid' hadmin => ?_, fun uid' hne => ?_⟩
  · exact (field_updateData hfield Any.asBool uid uid').symm.trans hadmin
  · rw [Write.perform, accounts_updateData_user] at hne
    split_ifs at hne with hu
    · exact hu ▸ huid
    · exact absurd rfl hne

theorem keeps_setData {db : Firestore} {uid : String} (huid : used uid) (user : User) :
    Keeps used db ((Write.setData (userRef uid) user.dictionary).perform db) := by
  refine ⟨fun uid' hadmin => ?_, fun uid' hne => ?_⟩
  · have hread : ((accounts (db.insert (userRef uid) user.dictionary) uid').bind fun d =>
        d.bool "isAdmin") = some true := hadmin
    rw [accounts_insert_user] at hread
    split_ifs at hread
    · -- the document of a new account has no such field
      cases hread
    · exact hread
  · rw [Write.perform, accounts_insert_user] at hne
    split_ifs at hne with hu
    · exact hu ▸ huid
    · exact absurd rfl hne

theorem app_keeps (he : ofApp e = true) (hs : Sanctioned used admin s.2)
    (h : Client.step characters s e = some t) : Keeps used s.1 t.1 := by
  obtain ⟨hdb, -⟩ := step_covered he h
  cases hcarried : carried s.2 e with
  | none =>
    rw [hdb, hcarried]
    exact ⟨fun _ hadmin => hadmin, fun _ hne => absurd rfl hne⟩
  | some w =>
    rw [hdb, hcarried, Option.elim_some]
    rcases carried_cases hcarried with ⟨tap, htap, ids, rfl⟩ | ⟨a, ha, uid, d, hstage, rfl⟩ |
        ⟨i, upload, d, hupload, hstage, rfl⟩
    · exact keeps_updateData (hs.taps tap htap) (by cases ids <;> rfl)
    · obtain ⟨hused, user, rfl⟩ := hs.attempts a ha uid d hstage
      exact keeps_setData hused user
    · obtain ⟨hused, himage⟩ := hs.uploads upload (List.mem_of_getElem? hupload)
      obtain ⟨url, rfl⟩ := himage d hstage
      exact keeps_updateData hused rfl

end

section
variable {ι κ : Type*} [DecidableEq ι] [DecidableEq κ] {o : ι → Outcomes}
  {characters : String → ℕ} {s m t : State ι κ} {es : List (Event ι κ)} {e : Event ι κ}

/-- The account is that of an admin from the start. -/
def Admin (s : State ι κ) (uid : String) : Prop := Profile.isAdmin s.store uid = some true

/-- The rebuild was started on an app on which an admin had been signed in. -/
def StartedByAdmin (o : ι → Outcomes) (characters : String → ℕ) (s : State ι κ)
    (es : List (Event ι κ)) (i : ι) : Prop :=
  ∃ k text uid, .apiButtonDidTap k i text ∈ es ∧ Used o characters s es k uid ∧ Admin s uid

/-- What holds after the events of a run. -/
structure Controlled (o : ι → Outcomes) (characters : String → ℕ) (s : State ι κ)
    (es : List (Event ι κ)) (t : State ι κ) : Prop where
  apps : ∀ k, Sanctioned (Used o characters s es k) (Admin s) (t.apps k)
  admins : ∀ uid, Profile.isAdmin t.store uid = some true → Admin s uid
  accounts : ∀ uid, accounts t.store uid ≠ accounts s.store uid →
    ∃ k, Used o characters s es k uid
  rebuilds : ∀ i p, t.rebuilds i = some p → p.Tidy ∧ StartedByAdmin o characters s es i
  catalogue : (∀ i, t.rebuilds i = none) → catalogue t.store = catalogue s.store

theorem Used.concat {k : κ} {uid : String} (h : Used o characters s es k uid) :
    Used o characters s (es ++ [e]) k uid := by
  obtain ⟨pre, post, m, rfl, hrun, huser⟩ := h
  exact ⟨pre, post ++ [e], m, by simp, hrun, huser⟩

theorem used_of_run {k : κ} {uid : String} (hr : run (step o characters) s es = some t)
    (huser : (t.apps k).currentUser = some uid) : Used o characters s es k uid :=
  ⟨es, [], t, (List.append_nil es).symm, hr, huser⟩

theorem StartedByAdmin.concat {i : ι} (h : StartedByAdmin o characters s es i) :
    StartedByAdmin o characters s (es ++ [e]) i := by
  obtain ⟨k, text, uid, hmem, hused, hadmin⟩ := h
  exact ⟨k, text, uid, List.mem_append_left _ hmem, hused.concat, hadmin⟩

/-- The apps, after one of them has made a step. -/
theorem Controlled.apps_update {k : κ} {app : App} (hm : Controlled o characters s es m)
    (happ : Sanctioned (Used o characters s (es ++ [e]) k) (Admin s) app) (k' : κ) :
    Sanctioned (Used o characters s (es ++ [e]) k') (Admin s) (Function.update m.apps k app k') :=
  (Function.forall_update_iff m.apps fun k' app => Sanctioned
    (Used o characters s (es ++ [e]) k') (Admin s) app).mpr
      ⟨happ, fun k' _ => (hm.apps k').mono fun _ => Used.concat⟩ k'

theorem Controlled.app {k : κ} {event : Client.Event}
    (hrun : run (step o characters) s es = some m) (hm : Controlled o characters s es m)
    (h : step o characters m (.app k event) = some t) :
    Controlled o characters s (es ++ [.app k event]) t := by
  have hnext : run (step o characters) s (es ++ [.app k event]) = some t :=
    run_concat.mpr ⟨m, hrun, h⟩
  obtain ⟨⟨db, app⟩, hr, rfl⟩ := Option.map_eq_some_iff.mp h
  simp only [appProcess] at hr
  split_ifs at hr with he
  have hold := (hm.apps k).mono fun uid => Used.concat (e := .app k event)
  have hkeeps := app_keeps he hold hr
  have happ : Sanctioned (Used o characters s (es ++ [.app k event]) k) (Admin s) app := by
    refine app_sanctioned hold hm.admins (fun uid huser => ?_) (fun uid huser => ?_) hr
    · exact (used_of_run hrun huser).concat
    · refine used_of_run hnext ?_
      simpa using huser
  refine ⟨hm.apps_update happ, fun uid hadmin => hm.admins uid (hkeeps.admins uid hadmin),
    fun uid hne => ?_, fun i p hp => ?_, fun hnone => ?_⟩
  · by_cases hsame : TaiwanSpots.accounts db uid = TaiwanSpots.accounts m.store uid
    · obtain ⟨k', hused⟩ := hm.accounts uid (hsame ▸ hne)
      exact ⟨k', hused.concat⟩
    · exact ⟨k, hkeeps.accounts uid hsame⟩
  · exact ⟨(hm.rebuilds i p hp).1, (hm.rebuilds i p hp).2.concat⟩
  · exact (catalogue_of_app he hr).trans (hm.catalogue hnone)

theorem Controlled.didSignIn {k : κ} {uid : String} (hm : Controlled o characters s es m)
    (h : step o characters m (.didSignIn k uid) = some t) :
    Controlled o characters s (es ++ [.didSignIn k uid]) t := by
  cases h
  have hold := (hm.apps k).mono fun uid' => Used.concat (e := .didSignIn k uid)
  refine ⟨hm.apps_update ⟨hold.taps, hold.attempts, hold.uploads, hold.setups, hold.flag⟩,
    hm.admins, fun uid' hne => ?_, fun i p hp => ?_, hm.catalogue⟩
  · obtain ⟨k', hused⟩ := hm.accounts uid' hne
    exact ⟨k', hused.concat⟩
  · exact ⟨(hm.rebuilds i p hp).1, (hm.rebuilds i p hp).2.concat⟩

theorem Controlled.apiButtonDidTap {k : κ} {i : ι} {text : Option String}
    (hm : Controlled o characters s es m)
    (h : step o characters m (.apiButtonDidTap k i text) = some t) :
    Controlled o characters s (es ++ [.apiButtonDidTap k i text]) t := by
  simp only [step] at h
  split_ifs at h with hstarted
  cases h
  refine ⟨fun k' => (hm.apps k').mono fun uid => Used.concat, hm.admins, fun uid hne => ?_,
    ?_, fun hnone => ?_⟩
  · obtain ⟨k', hused⟩ := hm.accounts uid hne
    exact ⟨k', hused.concat⟩
  · refine forall_update_some (fun i' p hp => ?_) fun p hp => ?_
    · exact ⟨(hm.rebuilds i' p hp).1, (hm.rebuilds i' p hp).2.concat⟩
    · -- the button has tested the flag of the app
      obtain ⟨count, -, hcount⟩ := Option.bind_eq_some_iff.mp hp
      have hflag : (m.apps k).profile.user.isAdmin = true := by
        unfold TaiwanSpots.apiButtonDidTap at hcount
        split_ifs at hcount with hflag
        exact hflag
      obtain ⟨uid, hused, hadmin⟩ := (hm.apps k).flag hflag
      rw [start_of_didTap hcount]
      refine ⟨by simp [Rebuild.Tidy], k, text, uid, ?_, hused.concat, hadmin⟩
      exact List.mem_append_right _ (List.mem_singleton_self _)
  · refine hm.catalogue fun i' => ?_
    by_cases hi : i' = i
    · simpa [hi] using hstarted
    · simpa [hi] using hnone i'

theorem Controlled.rebuild {i : ι} {event : TaiwanSpots.Event}
    (hm : Controlled o characters s es m)
    (h : step o characters m (.rebuild i event) = some t) :
    Controlled o characters s (es ++ [.rebuild i event]) t := by
  obtain ⟨p, hp, h⟩ := Option.bind_eq_some_iff.mp h
  obtain ⟨⟨db, q⟩, hq, rfl⟩ := Option.map_eq_some_iff.mp h
  obtain ⟨htidy, hstarted⟩ := hm.rebuilds i p hp
  obtain ⟨haccounts, hnext⟩ := rebuild_leavesAlone o i m.store p event (db, q) htidy hq
  have hsame : ∀ uid, TaiwanSpots.accounts db uid = TaiwanSpots.accounts m.store uid :=
    congrFun haccounts
  refine ⟨fun k' => (hm.apps k').mono fun uid => Used.concat, fun uid hadmin => ?_,
    fun uid hne => ?_, ?_, fun hnone => ?_⟩
  · refine hm.admins uid ?_
    have hread : ((TaiwanSpots.accounts m.store uid).bind fun d => d.bool "isAdmin") = some true :=
      hsame uid ▸ hadmin
    exact hread
  · obtain ⟨k', hused⟩ := hm.accounts uid (hsame uid ▸ hne)
    exact ⟨k', hused.concat⟩
  · refine forall_update_some (fun i' p' hp' => ?_) fun p' hp' => ?_
    · exact ⟨(hm.rebuilds i' p' hp').1, (hm.rebuilds i' p' hp').2.concat⟩
    · obtain rfl := Option.some.inj hp'
      exact ⟨hnext, hstarted.concat⟩
  · have hi := hnone i
    simp at hi

theorem step_controlled (hrun : run (step o characters) s es = some m)
    (hm : Controlled o characters s es m) (h : step o characters m e = some t) :
    Controlled o characters s (es ++ [e]) t := by
  cases e with
  | app k event => exact hm.app hrun h
  | didSignIn k uid => exact hm.didSignIn h
  | apiButtonDidTap k i text => exact hm.apiButtonDidTap h
  | rebuild i event => exact hm.rebuild h

theorem launch_sanctioned (currentUser : Option String) {used admin : String → Prop}
    (huser : ∀ uid, currentUser = some uid → used uid) :
    Sanctioned used admin (launch currentUser) where
  taps _ h := nomatch h
  attempts _ h := nomatch h
  uploads _ h := nomatch h
  setups := asked_setupData (fun _ h => nomatch h) huser
  flag h := nomatch h

theorem run_controlled {currentUser : κ → Option String}
    (hlaunch : ∀ k, s.apps k = launch (currentUser k)) (hnone : ∀ i, s.rebuilds i = none)
    (hr : run (step o characters) s es = some t) : Controlled o characters s es t := by
  have hstart : Controlled o characters s [] s := by
    refine ⟨fun k => ?_, fun _ h => h, fun _ hne => absurd rfl hne, fun i p hp => ?_, fun _ => rfl⟩
    · have huser : ∀ uid, currentUser k = some uid → Used o characters s [] k uid := fun uid h =>
        used_of_run rfl (by rw [hlaunch k]; exact h)
      rw [hlaunch k]
      exact launch_sanctioned _ huser
    · rw [hnone] at hp
      cases hp
  exact invariant_of_prefix (I := Controlled o characters s)
    (fun pre m e m' hrun hm h => step_controlled hrun hm h) hstart hr

/-- For any number of apps: nobody becomes an admin through them, a rebuild is started on an
app only where an admin has been signed in before, and without such a rebuild the Spots and
Cities stay as they are. -/
theorem rebuilt_by_admins {currentUser : κ → Option String}
    (hlaunch : ∀ k, s.apps k = launch (currentUser k)) (hnone : ∀ i, s.rebuilds i = none)
    (hr : run (step o characters) s es = some t) :
    (∀ uid, Profile.isAdmin t.store uid = some true → Profile.isAdmin s.store uid = some true) ∧
    (∀ i, t.rebuilds i ≠ none → ∃ k text uid, .apiButtonDidTap k i text ∈ es ∧
      Used o characters s es k uid ∧ Profile.isAdmin s.store uid = some true) ∧
    (catalogue t.store ≠ catalogue s.store → ∃ i, t.rebuilds i ≠ none) := by
  have hend := run_controlled hlaunch hnone hr
  refine ⟨hend.admins, fun i hi => ?_, fun hne => ?_⟩
  · obtain ⟨p, hp⟩ := Option.ne_none_iff_exists'.mp hi
    exact (hend.rebuilds i p hp).2
  · by_contra hall
    push Not at hall
    exact hne (hend.catalogue hall)

/-- For any number of apps and of rebuilds that they start: a document of an account changes
only where the account has been signed in on an app. -/
theorem changed_by_owners {currentUser : κ → Option String}
    (hlaunch : ∀ k, s.apps k = launch (currentUser k)) (hnone : ∀ i, s.rebuilds i = none)
    (hr : run (step o characters) s es = some t) (uid : String)
    (hne : accounts t.store uid ≠ accounts s.store uid) :
    ∃ k, Used o characters s es k uid :=
  (run_controlled hlaunch hnone hr).accounts uid hne

end

/-- One app, on which an admin is signed in. -/
def sampleStart : State Unit Unit :=
  ⟨Profile.sampleUsers, fun _ => launch (some "a"), fun _ => none⟩

/-- The flag is read, and the button starts a rebuild. -/
def sampleTap : List (Event Unit Unit) :=
  [.app () (.profile (.getDocument 0 true)), .app () (.profile (.didGetDocument 0)),
    .apiButtonDidTap () () (some "1")]

theorem rebuilt_by_admins_sample :
    ∃ t, run (step (fun _ => sampleOutcomes []) String.length) sampleStart sampleTap = some t ∧
      ∃ k uid, Used (fun _ => sampleOutcomes []) String.length sampleStart sampleTap k uid ∧
        Profile.isAdmin sampleStart.store uid = some true := by
  refine ⟨_, rfl, ?_⟩
  have h := @rebuilt_by_admins Unit Unit _ _ (fun _ => sampleOutcomes []) String.length sampleStart
    _ sampleTap (fun _ => some "a") (fun _ => rfl) (fun _ => rfl) rfl
  obtain ⟨k, -, uid, -, hused, hadmin⟩ := h.2.1 () (by decide)
  exact ⟨k, uid, hused, hadmin⟩

/-- An account is registered on the app of the admin. -/
def sampleRegistration : List (Event Unit Unit) :=
  [.app () (.stepOne "c@d.tw"), .app () (.stepTwo 0 "secret"),
    .app () (.registration (.finishButtonDidTap 0 "c")),
    .app () (.registration (.createUser 0 (some "c"))),
    .app () (.registration (.didCreateUser 0)), .app () (.registration (.setData 0 true))]

theorem changed_by_owners_sample :
    ∃ t, run (step (fun _ => sampleOutcomes []) String.length) sampleStart sampleRegistration =
        some t ∧
      (accounts sampleStart.store "c").isNone = true ∧ (accounts t.store "c").isSome = true ∧
      ∃ k, Used (fun _ : Unit => sampleOutcomes []) String.length sampleStart sampleRegistration
        k "c" :=
  ⟨_, rfl, rfl, rfl, @changed_by_owners Unit Unit _ _ (fun _ => sampleOutcomes []) String.length
    sampleStart _ sampleRegistration (fun _ => some "a") (fun _ => rfl) (fun _ => rfl) rfl "c"
    (Option.some_ne_none _)⟩

end TaiwanSpots.Administration
