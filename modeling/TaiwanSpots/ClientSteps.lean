import TaiwanSpots.Client

/-!
# What one event of an app can do

An event goes to one part of the app. The registration, the profile page and the tabs
take their own steps in it; a login and an upload take theirs here.
-/
namespace TaiwanSpots.Client

/-- Everything that one event can do. -/
inductive Step (count : String → ℕ) (s : Firestore × App) : Event → Firestore × App → Prop where
  | invalidEmail {email : String} (hemail : EmailFormat.validateEmail email = false) :
      Step count s (.stepOne email) s
  | stepOne {email : String} (hemail : EmailFormat.validateEmail email = true) :
      Step count s (.stepOne email) (s.1, { s.2 with stepTwos := s.2.stepTwos ++ [email] })
  | shortPassword {j : ℕ} {password : String} (hcount : ¬ 6 ≤ count password) :
      Step count s (.stepTwo j password) s
  | stepTwo {j : ℕ} {email password : String} (hemail : s.2.stepTwos[j]? = some email)
      (hcount : 6 ≤ count password) :
      Step count s (.stepTwo j password) (s.1, s.2.openStepThree email password)
  | registration {e : Registration.Event} {r : Firestore × Registration.Flow}
      (hstep : Registration.Step (s.1, s.2.flow) e r) :
      Step count s (.registration e) (r.1, (s.2.setFlow r.2).log (issuedByRegistration r.2 e))
  | loginButtonDidTap {email password : String} {knowsProfile : Bool} :
      Step count s (.loginButtonDidTap email password knowsProfile)
        (s.1, { s.2 with logins := s.2.logins ++ [some ⟨email, password, knowsProfile⟩] })
  | notSignedIn {i : ℕ} : Step count s (.didSignIn i none)
      (s.1, { s.2 with logins := s.2.logins.set i none })
  | didSignIn {i : ℕ} {login : Login} {uid : String} (hlogin : s.2.logins[i]?.join = some login) :
      Step count s (.didSignIn i (some uid))
        (s.1, App.didSignIn { s.2 with logins := s.2.logins.set i none } login uid)
  | profile {e : Profile.Event} {r : Firestore × Profile.Session} (he : ofProfile e = true)
      (hstep : Profile.Step (s.1, s.2.session) e r) :
      Step count s (.profile e) (r.1, s.2.setSession r.2)
  | nothingPicked {hasData : Bool} : Step count s (.didFinishPickingMedia hasData) s
  | didFinishPickingMedia {uid : String} (huser : s.2.tabs.device.currentUser = some uid) :
      Step count s (.didFinishPickingMedia true)
        (s.1, { s.2 with uploads := s.2.uploads ++ [⟨uid, .putData⟩] })
  | didPutData {i : ℕ} {ok : Bool} {upload : Upload} (hupload : s.2.uploads[i]? = some upload)
      (hstage : upload.stage = .putData) :
      Step count s (.didPutData i ok)
        (s.1, s.2.setUpload i (if ok then .downloadURL else .finished))
  | didDownloadURL {i : ℕ} {url : String} {upload : Upload}
      (hupload : s.2.uploads[i]? = some upload) (hstage : upload.stage = .downloadURL) :
      Step count s (.didDownloadURL i (some url))
        (s.1, (s.2.setUpload i (.updateData (profileImageData url))).log
          [.updateData (userRef upload.uid) (profileImageData url)])
  | noURL {i : ℕ} {upload : Upload} (hupload : s.2.uploads[i]? = some upload)
      (hstage : upload.stage = .downloadURL) :
      Step count s (.didDownloadURL i none) (s.1, s.2.setUpload i .finished)
  | updateData {i : ℕ} {ok : Bool} {upload : Upload} {dictionary : Dictionary}
      (hupload : s.2.uploads[i]? = some upload) (hstage : upload.stage = .updateData dictionary) :
      Step count s (.updateData i ok)
        (if ok then (s.1.updateData (userRef upload.uid) dictionary).getD s.1 else s.1,
          s.2.setUpload i .finished)
  | tabs {e : Screens.Event} {r : Firestore × Screens.Tabs} (he : ofTabs e = true)
      (hstep : Screens.Step (s.1, s.2.tabs) e r) :
      Step count s (.tabs e) (r.1, { s.2 with tabs := r.2 }.log (issuedByTabs r.2 e))

theorem step_cases {count : String → ℕ} {s t : Firestore × App} {e : Event}
    (h : step count s e = some t) : Step count s e t := by
  cases e with
  | stepOne email =>
    simp only [step] at h
    split_ifs at h with hemail <;> cases h
    · exact .stepOne hemail
    · exact .invalidEmail (by simpa using hemail)
  | stepTwo j password =>
    obtain ⟨email, hemail, rfl⟩ := Option.map_eq_some_iff.mp h
    split_ifs with hcount
    · exact .stepTwo hemail hcount
    · exact .shortPassword hcount
  | registration e =>
    obtain ⟨r, hr, rfl⟩ := Option.map_eq_some_iff.mp h
    exact .registration (Registration.step_cases hr)
  | loginButtonDidTap email password knowsProfile =>
    cases h
    exact .loginButtonDidTap
  | didSignIn i uid =>
    obtain ⟨login, hlogin, rfl⟩ := Option.map_eq_some_iff.mp h
    cases uid with
    | none => exact .notSignedIn
    | some uid => exact .didSignIn hlogin
  | profile e =>
    simp only [step] at h
    split_ifs at h with he
    obtain ⟨r, hr, rfl⟩ := Option.map_eq_some_iff.mp h
    exact .profile he (Profile.step_cases hr)
  | didFinishPickingMedia hasData =>
    obtain rfl := Option.some.inj h
    simp only [App.saveToStorage]
    split
    · cases hasData with
      | true => exact .didFinishPickingMedia ‹_›
      | false => exact .nothingPicked
    · exact .nothingPicked
  | didPutData i ok =>
    obtain ⟨upload, hupload, h⟩ := Option.bind_eq_some_iff.mp h
    simp only [advance] at h
    split at h <;> cases h
    exact .didPutData hupload ‹_›
  | didDownloadURL i url =>
    obtain ⟨upload, hupload, h⟩ := Option.bind_eq_some_iff.mp h
    cases url with
    | none =>
      simp only [advance] at h
      split at h <;> cases h
      exact .noURL hupload ‹_›
    | some url =>
      simp only [advance] at h
      split at h <;> cases h
      exact .didDownloadURL hupload ‹_›
  | updateData i ok =>
    obtain ⟨upload, hupload, h⟩ := Option.bind_eq_some_iff.mp h
    simp only [advance] at h
    split at h <;> cases h
    cases ok <;> exact .updateData hupload ‹_›
  | tabs e =>
    simp only [step] at h
    split_ifs at h with he
    obtain ⟨r, hr, rfl⟩ := Option.map_eq_some_iff.mp h
    exact .tabs he (Screens.step_cases hr)

/-- The tabs take a step of their own in it. -/
theorem tabs_of_step {count : String → ℕ} {s t : Firestore × App} {e : Screens.Event}
    (h : step count s (.tabs e) = some t) :
    Screens.step (s.1, s.2.tabs) e = some (t.1, t.2.tabs) := by
  simp only [step] at h
  split_ifs at h
  obtain ⟨r, hr, rfl⟩ := Option.map_eq_some_iff.mp h
  exact hr

theorem currentUser_didSignIn (s : App) (login : Login) (uid : String) :
    (s.didSignIn login uid).tabs.device.currentUser = some uid := by
  simp only [App.didSignIn, Profile.signIn]
  split_ifs <;> rfl

/-- The profile page signs out, and signs nobody in. -/
theorem currentUser_of_profile {s t : Firestore × Profile.Session} {e : Profile.Event}
    (he : ofProfile e = true) (h : Profile.Step s e t) :
    t.2.currentUser = s.2.currentUser ∨ e = .signOut true ∧ t.2.currentUser = none := by
  cases h with
  | @signOut ok =>
    cases ok with
    | true => exact .inr ⟨rfl, rfl⟩
    | false => exact .inl rfl
  | signIn | write => cases he
  | setupData | getDocument | didSetImage => exact .inl rfl
  | @didGetDocument i setup reply =>
    refine .inl ?_
    rcases reply with _ | _ | dictionary
    · rfl
    · rfl
    · simp only [Profile.didGetDocument]
      split <;> rfl

theorem currentUser_of_tabs {s t : Firestore × Screens.Tabs} {e : Screens.Event}
    (he : ofTabs e = true) (h : Screens.Step s e t) :
    t.2.device.currentUser = s.2.device.currentUser := by
  cases h with
  | signOut | signIn => cases he
  | write | didGetDocuments | reloadData | noCity | openCity | didSelectSpot | openFavorites
  | city | favorites => rfl
  | device hstep => cases hstep <;> rfl

end TaiwanSpots.Client
