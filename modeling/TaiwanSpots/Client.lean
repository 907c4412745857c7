import TaiwanSpots.EmailFormat
import TaiwanSpots.ProfileSession
import TaiwanSpots.Registration
import TaiwanSpots.Screens

/-!
# The client

One process holds the tabs, the profile page, the screens of the registration and
of the login, and the uploads of avatars, over one `Auth` and one indicator. The
writes that it issues are listed in issue order, whether or not the server carries
them out.
-/
namespace TaiwanSpots.Client

/-- A request that writes one document. -/
inductive Write where
  | setData (ref : DocumentReference) (data : Dictionary)
  | updateData (ref : DocumentReference) (data : Dictionary)

/-- A login that has been asked for. `knowsProfile` tells whether its screen was
presented by the profile page. -/
structure Login where
  email : String
  password : String
  knowsProfile : Bool

/-- What an upload waits for: the storage, the address of the picture, or the server. -/
inductive UploadStage where
  | putData
  | downloadURL
  | updateData (dictionary : Dictionary)
  | finished

structure Upload where
  uid : String
  stage : UploadStage

/-- `stepTwos` are the addresses of the password screens that have been opened; a
login is `none` once it has been answered. The account that is signed in and the
indicator are those of the device of the tabs. -/
structure App where
  tabs : Screens.Tabs
  profile : Profile.Session
  registration : Registration.Flow
  stepTwos : List String
  logins : List (Option Login)
  uploads : List Upload
  writes : List Write

namespace App

def session (s : App) : Profile.Session :=
  { s.profile with currentUser := s.tabs.device.currentUser, hud := s.tabs.device.hud }

def flow (s : App) : Registration.Flow :=
  { s.registration with currentUser := s.tabs.device.currentUser, hud := s.tabs.device.hud }

def setAuth (s : App) (currentUser : Option String) (hud : HUD) : App :=
  { s with tabs := { s.tabs with device := { s.tabs.device with currentUser, hud } } }

def setSession (s : App) (profile : Profile.Session) : App :=
  { s with profile }.setAuth profile.currentUser profile.hud

def setFlow (s : App) (registration : Registration.Flow) : App :=
  { s with registration }.setAuth registration.currentUser registration.hud

def log (s : App) (writes : List Write) : App := { s with writes := s.writes ++ writes }

/-- A password screen accepts a password and opens the last screen. -/
def openStepThree (s : App) (email password : String) : App :=
  { s with
    registration := { s.registration with
      stepThrees := s.registration.stepThrees ++ [User.init email "" password] } }

/-- `saveToStorage`, for an image that may have no data. -/
def saveToStorage (s : App) (hasData : Bool) : App :=
  match s.tabs.device.currentUser with
  | some uid => if hasData then { s with uploads := s.uploads ++ [⟨uid, .putData⟩] } else s
  | none => s

def setUpload (s : App) (i : ℕ) (stage : UploadStage) : App :=
  { s with uploads := s.uploads.modify i fun upload => { upload with stage } }

/-- The callback of the login. -/
def didSignIn (s : App) (login : Login) (uid : String) : App :=
  s.setSession (Profile.signIn s.session uid login.knowsProfile)

end App

/-- The write that the callback of a tap's read has issued. -/
def issuedByTap (tap : FavoriteButton.Tap) : List Write :=
  match tap.stage with
  | .updateData _ ids => [.updateData (userRef tap.uid) (FavoriteButton.favoriteData ids)]
  | _ => []

/-- The write that the callback of `createUser` has issued. -/
def issuedByAttempt (a : Registration.Attempt) : List Write :=
  match a.stage with
  | .setData uid userDict => [.setData (userRef uid) userDict]
  | _ => []

/-- What the tabs have issued in the event that has led to the state. -/
def issuedByTabs (tabs : Screens.Tabs) : Screens.Event → List Write
  | .device (.didGetDocument i) => (tabs.device.taps[i]?.map issuedByTap).getD []
  | _ => []

def issuedByRegistration (flow : Registration.Flow) : Registration.Event → List Write
  | .didCreateUser i => (flow.attempts[i]?.map issuedByAttempt).getD []
  | _ => []

/-- `didSignIn` and `didDownloadURL` are called with a result or with an error. -/
inductive Event where
  | stepOne (email : String)
  | stepTwo (screen : ℕ) (password : String)
  | registration (e : Registration.Event)
  | loginButtonDidTap (email password : String) (knowsProfile : Bool)
  | didSignIn (login : ℕ) (uid : Option String)
  | profile (e : Profile.Event)
  | didFinishPickingMedia (hasData : Bool)
  | didPutData (upload : ℕ) (ok : Bool)
  | didDownloadURL (upload : ℕ) (url : Option String)
  | updateData (upload : ℕ) (ok : Bool)
  | tabs (e : Screens.Event)

/-- Accounts come and go through the profile page and the login. -/
def ofTabs : Screens.Event → Bool
  | .signOut | .signIn _ => false
  | _ => true

/-- Sign-ins are those of the login, the writes of other clients those of the tabs. -/
def ofProfile : Profile.Event → Bool
  | .signIn _ _ | .write _ _ => false
  | _ => true

/-- The dictionary that an upload writes. -/
def profileImageData (url : String) : Dictionary := [("profileImageURL", .string url)]

/-- One event of the upload at index `i`. -/
def advance (s : Firestore × App) (upload : Upload) (i : ℕ) : Event → Option (Firestore × App)
  | .didPutData _ ok =>
    match upload.stage with
    | .putData => some (s.1, s.2.setUpload i (if ok then .downloadURL else .finished))
    | _ => none
  | .didDownloadURL _ (some url) =>
    match upload.stage with
    | .downloadURL =>
      let dictionary := profileImageData url
      some (s.1,
        (s.2.setUpload i (.updateData dictionary)).log
          [.updateData (userRef upload.uid) dictionary])
    | _ => none
  | .didDownloadURL _ none =>
    match upload.stage with
    | .downloadURL => some (s.1, s.2.setUpload i .finished)
    | _ => none
  | .updateData _ ok =>
    match upload.stage with
    | .updateData dictionary =>
      let db := if ok then s.1.updateData (userRef upload.uid) dictionary else none
      some (db.getD s.1, s.2.setUpload i .finished)
    | _ => none
  | _ => none

/-- `count` is the number of characters of a string. -/
def step (count : String → ℕ) (s : Firestore × App) : Event → Option (Firestore × App)
  | .stepOne email =>
    if EmailFormat.validateEmail email then
      some (s.1, { s.2 with stepTwos := s.2.stepTwos ++ [email] })
    else some s
  | .stepTwo j password =>
    s.2.stepTwos[j]?.map fun email =>
      if 6 ≤ count password then (s.1, s.2.openStepThree email password) else s
  | .registration e =>
    (Registration.step (s.1, s.2.flow) e).map fun r =>
      (r.1, (s.2.setFlow r.2).log (issuedByRegistration r.2 e))
  | .loginButtonDidTap email password knowsProfile =>
    some (s.1, { s.2 with logins := s.2.logins ++ [some ⟨email, password, knowsProfile⟩] })
  | .didSignIn i uid =>
    s.2.logins[i]?.join.map fun login =>
      let t : App := { s.2 with logins := s.2.logins.set i none }
      (s.1, match uid with
        | some uid => t.didSignIn login uid
        | none => t)
  | .profile e =>
    if ofProfile e then
      (Profile.step (s.1, s.2.session) e).map fun r => (r.1, s.2.setSession r.2)
    else none
  | .didFinishPickingMedia hasData => some (s.1, s.2.saveToStorage hasData)
  | .didPutData i ok => s.2.uploads[i]?.bind fun upload => advance s upload i (.didPutData i ok)
  | .didDownloadURL i url =>
    s.2.uploads[i]?.bind fun upload => advance s upload i (.didDownloadURL i url)
  | .updateData i ok => s.2.uploads[i]?.bind fun upload => advance s upload i (.updateData i ok)
  | .tabs e =>
    if ofTabs e then
      (Screens.step (s.1, s.2.tabs) e).map fun r =>
        (r.1, { s.2 with tabs := r.2 }.log (issuedByTabs r.2 e))
    else none

/-- The app as it starts, with the profile page loaded for the account that is signed in. -/
def launch (currentUser : Option String) : App :=
  let tabs := Screens.launch currentUser
  let profile := Profile.setupData ⟨currentUser, User.init "" "" "", tabs.device.hud, []⟩
  { tabs := { tabs with device := { tabs.device with hud := profile.hud } }
    profile
    registration := ⟨[], currentUser, profile.hud, [], []⟩
    stepTwos := []
    logins := []
    uploads := []
    writes := [] }

end TaiwanSpots.Client
