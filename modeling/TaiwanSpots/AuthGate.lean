import TaiwanSpots.AvatarUploads

/-!
# The screens in front of the tabs

The tab bar presents the login when it appears and nobody is signed in, and so does the
profile page after a sign-out. The sheet cannot be swiped away: it is dismissed by the
success of a request that one of its own screens has sent. Nothing behind a presented
sheet can be touched.
-/
namespace TaiwanSpots.Shell
open Runs

/-- A screen of the registration, by its place among those that have been opened. -/
inductive Screen where
  | stepOne
  | stepTwo (screen : ℕ)
  | stepThree (screen : ℕ)
  deriving DecidableEq, Repr

/-- The navigation controller of a login. `screens` are those above it, the top first. -/
structure Sheet where
  id : ℕ
  knowsProfile : Bool
  screens : List Screen
  deriving DecidableEq, Repr

inductive Presented where
  | auth (sheet : Sheet)
  | imagePicker
  | alert
  deriving DecidableEq, Repr

/-- `sheets` counts the logins that have been made, `senders` holds the sheet on which
each login was asked for. -/
structure State where
  app : Client.App
  appeared : Bool
  presented : Option Presented
  sheets : ℕ
  senders : List ℕ

namespace State

/-- The screen that can be touched, if it is one of a registration. -/
def top (s : State) : Option Screen :=
  match s.presented with
  | some (.auth sheet) => sheet.screens.head?
  | _ => none

/-- Whether the pages of the tabs can be touched. -/
def uncovered (s : State) : Bool := s.appeared && s.presented.isNone

/-- A controller that presents another one already refuses. -/
def present (s : State) (p : Presented) : State := { s with presented := s.presented.or (some p) }

def presentAuth (s : State) (knowsProfile : Bool) : State :=
  { s.present (.auth ⟨s.sheets, knowsProfile, []⟩) with sheets := s.sheets + 1 }

/-- `dismiss` of the login of a sheet. It has no effect when the sheet is gone. -/
def dismissSheet (s : State) (id : ℕ) : State :=
  match s.presented with
  | some (.auth sheet) => if sheet.id = id then { s with presented := none } else s
  | _ => s

/-- `dismiss` of a screen of a registration. -/
def dismissScreen (s : State) (screen : Screen) : State :=
  match s.presented with
  | some (.auth sheet) => if screen ∈ sheet.screens then { s with presented := none } else s
  | _ => s

def push (s : State) (screen : Screen) : State :=
  match s.presented with
  | some (.auth sheet) =>
    { s with presented := some (.auth { sheet with screens := screen :: sheet.screens }) }
  | _ => s

/-- `viewDidAppear` of the tab bar. -/
def viewDidAppear (s : State) : State :=
  match s.app.currentUser with
  | some _ => { s with appeared := true }
  | none => { s.presentAuth false with appeared := true }

end State

/-- Whether the event can happen: a touch needs its screen on top. -/
def enabled (s : State) : Client.Event → Bool
  | .stepOne _ => s.top = some .stepOne
  | .stepTwo j _ => s.top = some (.stepTwo j)
  | .registration (.finishButtonDidTap j _) => s.top = some (.stepThree j)
  | .loginButtonDidTap _ _ knowsProfile =>
    match s.presented with
    | some (.auth sheet) => sheet.screens.isEmpty && sheet.knowsProfile == knowsProfile
    | _ => false
  | .didFinishPickingMedia _ => s.presented = some .imagePicker
  | .profile (.signOut _) | .tabs (.didSelectCity _ _) | .tabs (.didSelectSpot _ _) |
    .tabs (.openFavorites _) | .tabs (.device (.favoriteButtonDidTap _)) => s.uncovered
  | _ => true

/-- What the event does to the screens, after it has done its work in the app `old`. -/
def presentation (count : String → ℕ) (old : Client.App) (s : State) : Client.Event → State
  | .stepOne email =>
    if EmailFormat.validateEmail email then s.push (.stepTwo old.stepTwos.length) else s
  | .stepTwo _ password =>
    if 6 ≤ count password then s.push (.stepThree old.registration.stepThrees.length) else s
  | .registration (.didSetData i) =>
    match old.registration.attempts[i]? with
    | some ⟨screen, _, _, .didSetData true⟩ => s.dismissScreen (.stepThree screen)
    | _ => s
  | .loginButtonDidTap _ _ _ =>
    match s.presented with
    | some (.auth sheet) => { s with senders := s.senders ++ [sheet.id] }
    | _ => s
  | .didSignIn i (some _) =>
    match s.senders[i]? with
    | some id => s.dismissSheet id
    | none => s
  | .didFinishPickingMedia _ => { s with presented := none }
  | .profile (.signOut true) => s.presentAuth true
  | _ => s

/-- `didSignIn` is the callback of a sign-in with Google. `mapDidAppear` presents the alert
of a map that may not know the location. -/
inductive Event where
  | viewDidAppear
  | registerButtonDidTap
  | back
  | avatarImageViewDidTap
  | imagePickerControllerDidCancel
  | mapDidAppear
  | alertDidTap
  | didSignIn (uid : String)
  | client (e : Client.Event)

/-- `count` is the number of characters of a string. -/
def step (count : String → ℕ) (s : Firestore × State) : Event → Option (Firestore × State)
  | .viewDidAppear => some (s.1, s.2.viewDidAppear)
  | .registerButtonDidTap =>
    match s.2.presented with
    | some (.auth ⟨_, _, []⟩) => some (s.1, s.2.push .stepOne)
    | _ => none
  | .back =>
    match s.2.presented with
    | some (.auth ⟨id, knowsProfile, _ :: below⟩) =>
      some (s.1, { s.2 with presented := some (.auth ⟨id, knowsProfile, below⟩) })
    | _ => none
  | .avatarImageViewDidTap =>
    if s.2.uncovered then some (s.1, s.2.present .imagePicker) else none
  | .imagePickerControllerDidCancel =>
    if s.2.presented = some .imagePicker then some (s.1, { s.2 with presented := none }) else none
  | .mapDidAppear => if s.2.appeared then some (s.1, s.2.present .alert) else none
  | .alertDidTap =>
    if s.2.presented = some .alert then some (s.1, { s.2 with presented := none }) else none
  | .didSignIn uid =>
    some (s.1, { s.2 with app := s.2.app.setAuth (some uid) s.2.app.tabs.device.hud })
  | .client e =>
    if enabled s.2 e then
      (Client.step count (s.1, s.2.app) e).map fun r =>
        (r.1, presentation count s.2.app { s.2 with app := r.2 } e)
    else none

/-- The app as it starts, before the tab bar has appeared. -/
def launch (currentUser : Option String) : State where
  app := Client.launch currentUser
  appeared := false
  presented := none
  sheets := 0
  senders := []

/-- What decides who is signed in: the account, the attempts and their users. -/
def standing (app : Client.App) :
    Option String × List Registration.Attempt × ℕ :=
  (app.currentUser, app.registration.attempts, app.registration.stepThrees.length)

/-- The account of the attempt has been created, and nobody signs out on a sheet. -/
def Created : Registration.Stage → Prop
  | .didCreateUser true | .setData _ _ | .didSetData _ => True
  | _ => False

/-- What holds in every state. -/
structure Inv (s : State) : Prop where
  fresh : s.appeared = false → s.presented = none
  gate : s.appeared = true → s.app.currentUser = none → ∃ sheet, s.presented = some (.auth sheet)
  opened : ∀ a ∈ s.app.registration.attempts, a.stepThree < s.app.registration.stepThrees.length
  created : ∀ sheet, s.presented = some (.auth sheet) → ∀ a ∈ s.app.registration.attempts,
    .stepThree a.stepThree ∈ sheet.screens → Created a.stage → s.app.currentUser ≠ none

/-- Events that have nothing to do with accounts. -/
theorem standing_of_step {count : String → ℕ} {s t : Firestore × Client.App} {e : Client.Event}
    (h : Client.step count s e = some t) (htwo : ∀ j password, e ≠ .stepTwo j password)
    (hregistration : ∀ e', e ≠ .registration e') (hsignIn : ∀ i uid, e ≠ .didSignIn i (some uid))
    (hsignOut : e ≠ .profile (.signOut true)) : standing t.2 = standing s.2 := by
  cases Client.step_cases h with
  | shortPassword | stepTwo => exact absurd rfl (htwo _ _)
  | registration => exact absurd rfl (hregistration _)
  | didSignIn => exact absurd rfl (hsignIn _ _)
  | profile hprofile hstep =>
    rcases Client.currentUser_of_profile hprofile hstep with hsame | ⟨rfl, -⟩
    · exact Prod.ext hsame rfl
    · exact absurd rfl hsignOut
  | tabs htabs hstep => exact Prod.ext (Client.currentUser_of_tabs htabs hstep) rfl
  | invalidEmail | stepOne | loginButtonDidTap | notSignedIn | nothingPicked
  | didFinishPickingMedia | didPutData | didDownloadURL | noURL | updateData => rfl

/-- While somebody is signed in, nothing has to be presented. -/
theorem Inv.of_signedIn {s : State} (hfresh : s.appeared = false → s.presented = none)
    (hopened : ∀ a ∈ s.app.registration.attempts,
      a.stepThree < s.app.registration.stepThrees.length)
    (huser : s.app.currentUser ≠ none) : Inv s :=
  ⟨hfresh, fun _ hnone => absurd hnone huser, hopened, fun _ _ _ _ _ _ => huser⟩

theorem Inv.of_standing {s t : State} (hs : Inv s) (happ : standing t.app = standing s.app)
    (happeared : t.appeared = s.appeared) (hpresented : t.presented = s.presented) : Inv t := by
  simp only [standing, Prod.mk.injEq] at happ
  obtain ⟨huser, hattempts, hlength⟩ := happ
  constructor
  · rw [happeared, hpresented]
    exact hs.fresh
  · rw [happeared, huser, hpresented]
    exact hs.gate
  · rw [hattempts, hlength]
    exact hs.opened
  · rw [hpresented, hattempts, huser]
    exact hs.created

/-- The sheet is a new one, and no request has been sent from it. -/
theorem Inv.of_presentAuth {s t : State} {id : ℕ} {knowsProfile : Bool} (hs : Inv s)
    (happeared : t.appeared = true) (hpresented : t.presented = some (.auth ⟨id, knowsProfile, []⟩))
    (hattempts : t.app.registration.attempts = s.app.registration.attempts)
    (hlength : t.app.registration.stepThrees.length = s.app.registration.stepThrees.length) :
    Inv t := by
  constructor
  · simp [happeared]
  · exact fun _ _ => ⟨_, hpresented⟩
  · rw [hattempts, hlength]
    exact hs.opened
  · intro sheet hsheet a _ hscreen
    rw [hpresented] at hsheet
    cases hsheet
    simp at hscreen

theorem Inv.viewDidAppear {s : State} (hs : Inv s) : Inv s.viewDidAppear := by
  cases huser : s.app.currentUser with
  | some uid =>
    have happear : s.viewDidAppear = { s with appeared := true } := by
      simp [State.viewDidAppear, huser]
    rw [happear]
    exact .of_signedIn (by simp) hs.opened (by simp [huser])
  | none =>
    have happear : s.viewDidAppear = { s.presentAuth false with appeared := true } := by
      simp [State.viewDidAppear, huser]
    rw [happear]
    cases happeared : s.appeared with
    | false =>
      have hpresented := hs.fresh happeared
      have hsheet : ({ s.presentAuth false with appeared := true } : State).presented =
          some (.auth ⟨s.sheets, false, []⟩) := by
        simp [State.presentAuth, State.present, hpresented]
      exact hs.of_presentAuth rfl hsheet rfl rfl
    | true =>
      obtain ⟨sheet, hsheet⟩ := hs.gate happeared huser
      exact hs.of_standing rfl happeared.symm
        (by simp [State.presentAuth, State.present, hsheet])

/-- A screen is opened that has sent no request. -/
theorem Inv.push {s : State} {screen : Screen} (hs : Inv s)
    (hnew : ∀ a ∈ s.app.registration.attempts, .stepThree a.stepThree ≠ screen) :
    Inv (s.push screen) := by
  unfold State.push
  split
  · rename_i sheet hsheet
    refine ⟨fun happeared => ?_, fun _ _ => ⟨_, rfl⟩, hs.opened, ?_⟩
    · rw [hs.fresh happeared] at hsheet
      cases hsheet
    · intro sheet' hsheet' a ha hscreen
      obtain rfl : { sheet with screens := screen :: sheet.screens } = sheet' := by
        simpa using hsheet'
      have hold : .stepThree a.stepThree ∈ sheet.screens :=
        (List.mem_cons.mp hscreen).resolve_left (hnew a ha)
      exact hs.created sheet hsheet a ha hold
  · exact hs

/-- Going back leaves the screens below. -/
theorem Inv.back {s : State} {id : ℕ} {knowsProfile : Bool} {screen : Screen}
    {below : List Screen} (hs : Inv s)
    (hpresented : s.presented = some (.auth ⟨id, knowsProfile, screen :: below⟩)) :
    Inv { s with presented := some (.auth ⟨id, knowsProfile, below⟩) } := by
  refine ⟨fun happeared => ?_, fun _ _ => ⟨_, rfl⟩, hs.opened, ?_⟩
  · rw [hs.fresh happeared] at hpresented
    cases hpresented
  · intro sheet hsheet a ha hscreen
    cases hsheet
    exact hs.created _ hpresented a ha (List.mem_cons_of_mem _ hscreen)

/-- Where no login is presented, somebody is signed in. -/
theorem Inv.signedIn {s : State} (hs : Inv s) (happeared : s.appeared = true)
    (hauth : ∀ sheet, s.presented ≠ some (.auth sheet)) : s.app.currentUser ≠ none := by
  intro hnone
  obtain ⟨sheet, hsheet⟩ := hs.gate happeared hnone
  exact hauth sheet hsheet

/-- Anything may be presented where no login is. -/
theorem Inv.change {s : State} (p : Option Presented) (hs : Inv s)
    (happeared : s.appeared = true) (hauth : ∀ sheet, s.presented ≠ some (.auth sheet)) :
    Inv { s with presented := p } := by
  refine .of_signedIn (fun hfalse => ?_) hs.opened (hs.signedIn happeared hauth)
  rw [happeared] at hfalse
  cases hfalse

theorem Inv.appeared_of_presented {s : State} (hs : Inv s) (h : s.presented ≠ none) :
    s.appeared = true := by
  cases happeared : s.appeared with
  | true => rfl
  | false => exact absurd (hs.fresh happeared) h

theorem Inv.present {s : State} {p : Presented} (hs : Inv s) (happeared : s.appeared = true) :
    Inv (s.present p) := by
  cases hpresented : s.presented with
  | none =>
    have hpresent : s.present p = { s with presented := some p } := by
      simp [State.present, hpresented]
    rw [hpresent]
    exact hs.change _ happeared (by simp [hpresented])
  | some q =>
    have hpresent : s.present p = s := by
      unfold State.present
      rw [hpresented, Option.some_or, ← hpresented]
    rw [hpresent]
    exact hs

/-- A registration that is done closes its sheet; its account is signed in. -/
theorem Inv.dismissScreen {s : State} {screen : Screen} (hs : Inv s)
    (huser : ∀ sheet, s.presented = some (.auth sheet) → screen ∈ sheet.screens →
      s.app.currentUser ≠ none) : Inv (s.dismissScreen screen) := by
  unfold State.dismissScreen
  split
  · rename_i sheet hsheet
    split_ifs with hscreen
    · exact .of_signedIn (fun _ => rfl) hs.opened (huser sheet hsheet hscreen)
    · exact hs
  · exact hs

theorem dismissSheet_app (s : State) (id : ℕ) : (s.dismissSheet id).app = s.app := by
  unfold State.dismissSheet
  split
  · split_ifs <;> rfl
  · rfl

theorem dismissSheet_appeared (s : State) (id : ℕ) :
    (s.dismissSheet id).appeared = s.appeared := by
  unfold State.dismissSheet
  split
  · split_ifs <;> rfl
  · rfl

theorem dismissSheet_none {s : State} (h : s.presented = none) (id : ℕ) :
    (s.dismissSheet id).presented = none := by
  simp [State.dismissSheet, h]

/-- One attempt goes on. -/
theorem Inv.setStage {s t : State} {i : ℕ} {stage : Registration.Stage} (hs : Inv s)
    (happeared : t.appeared = s.appeared) (hpresented : t.presented = s.presented)
    (huser : t.app.currentUser = s.app.currentUser)
    (hlength : t.app.registration.stepThrees.length = s.app.registration.stepThrees.length)
    (hattempts : t.app.registration.attempts =
      s.app.registration.attempts.modify i fun a => { a with stage })
    (hstage : ∀ a, s.app.registration.attempts[i]? = some a → Created stage → Created a.stage) :
    Inv t := by
  constructor
  · rw [happeared, hpresented]
    exact hs.fresh
  · rw [happeared, hpresented, huser]
    exact hs.gate
  · rw [hattempts, hlength]
    exact forall_mem_modify hs.opened fun a ha => hs.opened a (List.mem_of_getElem? ha)
  · intro sheet hsheet
    rw [hpresented] at hsheet
    rw [hattempts, huser]
    refine forall_mem_modify (hs.created sheet hsheet) fun a ha hscreen hcreated => ?_
    exact hs.created sheet hsheet a (List.mem_of_getElem? ha) hscreen (hstage a ha hcreated)

theorem Inv.registration {count : String → ℕ} {s : State} {db : Firestore}
    {e : Registration.Event} {r : Firestore × Registration.Flow} {writes : List Client.Write}
    (hs : Inv s) (h : Registration.Step (db, s.app.flow) e r) :
    Inv (presentation count s.app { s with app := (s.app.setFlow r.2).log writes }
      (.registration e)) := by
  cases h with
  | @finishButtonDidTap j name user huser =>
    have hj : j < s.app.registration.stepThrees.length := (List.getElem?_eq_some_iff.mp huser).1
    refine ⟨hs.fresh, hs.gate, ?_, fun sheet hsheet => ?_⟩
    · refine forall_mem_concat (fun a ha => ?_) ?_
      · exact (hs.opened a ha).trans_eq (List.length_modify _ _ _).symm
      · exact hj.trans_eq (List.length_modify _ _ _).symm
    · exact forall_mem_concat (hs.created sheet hsheet) fun _ hcreated => hcreated.elim
  | @created i uid a ha hstage huid =>
    have hopened := forall_mem_modify (i := i)
      (f := fun a : Registration.Attempt =>
        { a with created := some uid, stage := .didCreateUser true })
      hs.opened fun b hb => hs.opened b (List.mem_of_getElem? hb)
    exact .of_signedIn hs.fresh hopened (by simp [presentation, Client.App.log,
      Client.App.setFlow, Client.App.setAuth, Registration.create, Client.App.currentUser])
  | @refused i a ha hstage =>
    exact hs.setStage rfl rfl rfl rfl rfl fun _ _ hcreated => hcreated.elim
  | @didCreateUser i a ok ha hstage =>
    cases ok with
    | false => exact hs.setStage rfl rfl rfl rfl rfl fun _ _ hcreated => hcreated.elim
    | true =>
      have hcreated : ∀ b, s.app.registration.attempts[i]? = some b → Created b.stage := by
        intro b hb
        obtain rfl : a = b := Option.some.inj (ha.symm.trans hb)
        rw [hstage]
        trivial
      simp only [Registration.didCreateUser, if_true]
      split <;> exact hs.setStage rfl rfl rfl rfl rfl fun b hb _ => hcreated b hb
  | @setData i a ok uid userDict ha hstage =>
    refine hs.setStage rfl rfl rfl rfl rfl fun b hb _ => ?_
    obtain rfl : a = b := Option.some.inj (ha.symm.trans hb)
    rw [hstage]
    trivial
  | @didSetData i a ok ha hstage =>
    have hcreated : Created a.stage := by
      rw [hstage]
      trivial
    obtain ⟨screen, email, created, stage⟩ := a
    obtain rfl : stage = .didSetData ok := hstage
    have hreported : Inv { s with
        app := (s.app.setFlow ((Registration.didSetData s.app.flow ok).1.setStage i
          (Registration.didSetData s.app.flow ok).2)).log writes } :=
      hs.setStage rfl rfl rfl rfl rfl fun _ _ hcreated => hcreated.elim
    have hattempt : s.app.registration.attempts[i]? =
        some ⟨screen, email, created, .didSetData ok⟩ := ha
    simp only [presentation, hattempt]
    cases ok with
    | false => exact hreported
    | true =>
      refine hreported.dismissScreen fun sheet hsheet hscreen => ?_
      exact hs.created sheet hsheet _ (List.mem_of_getElem? hattempt) hscreen hcreated

theorem uncovered_iff (s : State) :
    s.uncovered = true ↔ s.appeared = true ∧ s.presented = none := by
  simp [State.uncovered]

/-- The password screen opens the screen of the name, whose index is new. -/
theorem Inv.stepTwo {count : String → ℕ} {s : State} {db : Firestore} {j : ℕ} {password : String}
    {r : Firestore × Client.App} (hs : Inv s)
    (h : Client.step count (db, s.app) (.stepTwo j password) = some r) :
    Inv (presentation count s.app { s with app := r.2 } (.stepTwo j password)) := by
  obtain ⟨email, -, rfl⟩ := Option.map_eq_some_iff.mp h
  simp only [presentation]
  split_ifs with hcount
  · have hopen : Inv { s with app := s.app.openStepThree email password } := by
      refine ⟨hs.fresh, hs.gate, fun a ha => ?_, hs.created⟩
      exact (hs.opened a ha).trans_le (by simp [Client.App.openStepThree])
    refine hopen.push fun a ha => ?_
    have hlt := hs.opened a ha
    simp [hlt.ne]
  · exact hs

/-- Whatever becomes of the sheet, somebody is signed in. -/
theorem Inv.didSignIn {count : String → ℕ} {s : State} {db : Firestore} {i : ℕ} {uid : String}
    {r : Firestore × Client.App} (hs : Inv s)
    (h : Client.step count (db, s.app) (.didSignIn i (some uid)) = some r) :
    Inv (presentation count s.app { s with app := r.2 } (.didSignIn i (some uid))) := by
  obtain ⟨login, -, rfl⟩ := Option.map_eq_some_iff.mp h
  set app : Client.App := { s.app with logins := s.app.logins.set i none }
  have huser : (app.didSignIn login uid).currentUser ≠ none := by
    rw [Client.App.currentUser, Client.currentUser_didSignIn]
    exact Option.some_ne_none uid
  have hsigned : Inv { s with app := app.didSignIn login uid } :=
    .of_signedIn hs.fresh hs.opened huser
  simp only [presentation]
  split
  · refine .of_signedIn (fun happeared => ?_) ?_ ?_
    · rw [dismissSheet_appeared] at happeared
      exact dismissSheet_none (hsigned.fresh happeared) _
    · rw [dismissSheet_app]
      exact hsigned.opened
    · rw [dismissSheet_app]
      exact huser
  · exact hsigned

theorem Inv.signOut {count : String → ℕ} {s : State} {db : Firestore}
    {r : Firestore × Client.App} (hs : Inv s) (henabled : s.uncovered = true)
    (h : Client.step count (db, s.app) (.profile (.signOut true)) = some r) :
    Inv (presentation count s.app { s with app := r.2 } (.profile (.signOut true))) := by
  obtain ⟨happeared, hpresented⟩ := (uncovered_iff s).mp henabled
  simp only [Client.step, Client.ofProfile, if_true, Profile.step, Option.map_some,
    Option.some.injEq] at h
  subst h
  have hsheet : (presentation count s.app
      { s with app := s.app.setSession (Profile.signOut s.app.session true) }
      (.profile (.signOut true))).presented = some (.auth ⟨s.sheets, true, []⟩) := by
    simp [presentation, State.presentAuth, State.present, hpresented]
  exact hs.of_presentAuth happeared hsheet rfl rfl

/-- One case for each event that touches accounts, and one for the others. -/
theorem Inv.client {count : String → ℕ} {s : State} {db : Firestore} {e : Client.Event}
    {r : Firestore × Client.App} (hs : Inv s) (henabled : enabled s e = true)
    (h : Client.step count (db, s.app) e = some r) :
    Inv (presentation count s.app { s with app := r.2 } e) := by
  have hother : (∀ j password, e ≠ .stepTwo j password) → (∀ e', e ≠ .registration e') →
      (∀ i uid, e ≠ .didSignIn i (some uid)) → e ≠ .profile (.signOut true) →
      Inv { s with app := r.2 } := fun htwo hregistration hsignIn hsignOut =>
    hs.of_standing (standing_of_step h htwo hregistration hsignIn hsignOut) rfl rfl
  cases e with
  | stepTwo j password => exact hs.stepTwo h
  | registration e =>
    obtain ⟨r', hr', rfl⟩ := Option.map_eq_some_iff.mp h
    exact hs.registration (Registration.step_cases hr')
  | stepOne email =>
    have hstep := hother (by simp) (by simp) (by simp) (by simp)
    simp only [presentation]
    split_ifs
    · exact hstep.push (by simp)
    · exact hstep
  | loginButtonDidTap email password knowsProfile =>
    have hstep := hother (by simp) (by simp) (by simp) (by simp)
    simp only [presentation]
    split
    · exact hstep.of_standing rfl rfl rfl
    · exact hstep
  | didSignIn i uid =>
    cases uid with
    | none => exact hother (by simp) (by simp) (by simp) (by simp)
    | some uid => exact hs.didSignIn h
  | profile e =>
    by_cases hsignOut : e = .signOut true
    · subst hsignOut
      exact hs.signOut henabled h
    · have hstep := hother (by simp) (by simp) (by simp) (by simpa using hsignOut)
      rcases e with _ | (_ | _) | _ | _ | _ | _ | _
      all_goals first | exact hstep | exact absurd rfl hsignOut
  | didFinishPickingMedia hasData =>
    have hstep := hother (by simp) (by simp) (by simp) (by simp)
    have hpicker : s.presented = some .imagePicker := by simpa [enabled] using henabled
    have happeared := hs.appeared_of_presented (by simp [hpicker])
    exact hstep.change none happeared (by simp [hpicker])
  | didPutData i ok => exact hother (by simp) (by simp) (by simp) (by simp)
  | didDownloadURL i url => exact hother (by simp) (by simp) (by simp) (by simp)
  | updateData i ok => exact hother (by simp) (by simp) (by simp) (by simp)
  | tabs e => exact hother (by simp) (by simp) (by simp) (by simp)

theorem step_inv {count : String → ℕ} {s t : Firestore × State} {e : Event} (hs : Inv s.2)
    (h : step count s e = some t) : Inv t.2 := by
  cases e with
  | viewDidAppear =>
    cases h
    exact hs.viewDidAppear
  | registerButtonDidTap =>
    simp only [step] at h
    split at h <;> cases h
    exact hs.push (by simp)
  | back =>
    simp only [step] at h
    split at h <;> cases h
    exact hs.back ‹_›
  | avatarImageViewDidTap =>
    simp only [step] at h
    split_ifs at h with huncovered
    cases h
    exact hs.present ((uncovered_iff _).mp huncovered).1
  | imagePickerControllerDidCancel =>
    simp only [step] at h
    split_ifs at h with hpicker
    cases h
    exact hs.change none (hs.appeared_of_presented (by simp [hpicker])) (by simp [hpicker])
  | mapDidAppear =>
    simp only [step] at h
    split_ifs at h with happeared
    cases h
    exact hs.present happeared
  | alertDidTap =>
    simp only [step] at h
    split_ifs at h with halert
    cases h
    exact hs.change none (hs.appeared_of_presented (by simp [halert])) (by simp [halert])
  | didSignIn uid =>
    cases h
    exact .of_signedIn hs.fresh hs.opened (by simp [Client.App.setAuth, Client.App.currentUser])
  | client e =>
    simp only [step] at h
    split_ifs at h with henabled
    obtain ⟨r, hr, rfl⟩ := Option.map_eq_some_iff.mp h
    exact hs.client henabled hr

theorem inv_launch (currentUser : Option String) : Inv (launch currentUser) where
  fresh _ := rfl
  gate h := nomatch h
  opened _ h := nomatch h
  created _ h := nomatch h

theorem inv_of_run {count : String → ℕ} {currentUser : Option String} {db : Firestore}
    {s : Firestore × State} {es : List Event}
    (hr : run (step count) (db, launch currentUser) es = some s) : Inv s.2 :=
  invariant_of_step (I := fun s => Inv s.2) (fun _ _ _ hs h => step_inv hs h)
    (inv_launch currentUser) hr

/-! What is behind a login. -/

/-- Whether the event is a touch on a page of the tabs, or the choice of a picture. -/
def behind : Event → Bool
  | .avatarImageViewDidTap => true
  | .client e =>
    match e with
    | .didFinishPickingMedia _ | .profile (.signOut _) | .tabs (.didSelectCity _ _) |
      .tabs (.didSelectSpot _ _) | .tabs (.openFavorites _) |
      .tabs (.device (.favoriteButtonDidTap _)) => true
    | _ => false
  | _ => false

/-- The request that the event sends is for the account. -/
def Serves (uid : String) (s t : Client.App) : Event → Prop
  | .client (.tabs (.device (.favoriteButtonDidTap c))) =>
    ∃ cell, s.tabs.pages.cell c = some cell ∧ t.tabs.device.taps =
      s.tabs.device.taps ++ [⟨c, uid, cell.spot.id, !cell.isSelected, .getDocument⟩]
  | .client (.didFinishPickingMedia true) => t.uploads = s.uploads ++ [⟨uid, .putData⟩]
  | .client (.tabs (.openFavorites page)) =>
    ∃ loading, t.tabs.favoritesLoads page = some loading ∧ loading.userFetch = some uid
  | .client (.tabs (.didSelectCity _ page)) =>
    s.tabs.cityLoads page = none → ∀ loading, t.tabs.cityLoads page = some loading →
      loading.userFetch = some uid
  | _ => True

/-- A touch on the tabs does what it does in the app, and shows no other screen. -/
theorem tabs_of_step {count : String → ℕ} {s t : Firestore × State} {e : Screens.Event}
    (h : step count s (.client (.tabs e)) = some t) :
    ∃ r, Screens.Step (s.1, s.2.app.tabs) e r ∧ t.2.app.tabs = r.2 := by
  simp only [step] at h
  split_ifs at h
  obtain ⟨r, hr, rfl⟩ := Option.map_eq_some_iff.mp h
  cases Client.step_cases hr with
  | tabs htabs hstep => exact ⟨_, hstep, rfl⟩

/-- Whoever is signed in when the event happens is served. -/
theorem serves_of_step {count : String → ℕ} {s t : Firestore × State} {e : Event} {uid : String}
    (huser : s.2.app.currentUser = some uid) (h : step count s e = some t) :
    Serves uid s.2.app t.2.app e := by
  have hdevice : s.2.app.tabs.device.currentUser = some uid := huser
  unfold Serves
  split
  · obtain ⟨r, hr, htabs⟩ := tabs_of_step h
    rw [htabs]
    cases hr with
    | device hstep =>
      cases hstep with
      | signedOut hcell hnone =>
        rw [hdevice] at hnone
        cases hnone
      | @signedIn c cell uid' hcell hsome =>
        obtain rfl : uid = uid' := Option.some.inj (hdevice.symm.trans hsome)
        exact ⟨cell, hcell, rfl⟩
  · simp only [step] at h
    split_ifs at h
    cases h
    simp [presentation, Client.App.saveToStorage, hdevice]
  · obtain ⟨r, hr, htabs⟩ := tabs_of_step h
    rw [htabs]
    cases hr with
    | openFavorites hfresh =>
      exact ⟨_, Function.update_self _ _ _, hdevice⟩
  · obtain ⟨r, hr, htabs⟩ := tabs_of_step h
    rw [htabs]
    intro hfresh loading hloading
    cases hr with
    | noCity =>
      rw [hfresh] at hloading
      cases hloading
    | openCity =>
      simp only [Screens.Tabs.setCityLoading, Function.update_self, Option.some.injEq] at hloading
      subst hloading
      exact hdevice
  · trivial

theorem signedIn_of_behind {count : String → ℕ} {s t : Firestore × State} {e : Event}
    (hs : Inv s.2) (hbehind : behind e = true) (h : step count s e = some t) :
    s.2.app.currentUser ≠ none := by
  have huncovered : s.2.uncovered = true → s.2.app.currentUser ≠ none := fun huncovered => by
    obtain ⟨happeared, hpresented⟩ := (uncovered_iff _).mp huncovered
    exact hs.signedIn happeared (by simp [hpresented])
  unfold behind at hbehind
  split at hbehind
  · simp only [step] at h
    split_ifs at h with hcovered
    exact huncovered hcovered
  · simp only [step] at h
    split_ifs at h with henabled
    split at hbehind
    · have hpicker : s.2.presented = some .imagePicker := by simpa [enabled] using henabled
      exact hs.signedIn (hs.appeared_of_presented (by simp [hpicker])) (by simp [hpicker])
    all_goals first | exact huncovered henabled | cases hbehind
  · cases hbehind

/-- Whenever nobody is signed in, the login is in front of the tabs; whoever touches the
pages behind it is signed in, and what the touch asks for is asked for that account. -/
theorem gate_stays_shut {count : String → ℕ} {currentUser : Option String} {db : Firestore}
    {s : Firestore × State} {es : List Event}
    (hr : run (step count) (db, launch currentUser) es = some s) :
    (s.2.appeared = true → s.2.app.currentUser = none →
      ∃ sheet, s.2.presented = some (.auth sheet)) ∧
    ∀ e t, behind e = true → step count s e = some t →
      ∃ uid, s.2.app.currentUser = some uid ∧ Serves uid s.2.app t.2.app e := by
  have hs := inv_of_run hr
  refine ⟨hs.gate, fun e t hbehind h => ?_⟩
  obtain ⟨uid, huser⟩ := Option.ne_none_iff_exists'.mp (signedIn_of_behind hs hbehind h)
  exact ⟨uid, huser, serves_of_step huser h⟩

/-- The app is opened by nobody, an account is registered and its picture chosen. -/
def sampleShell : List Event :=
  [.viewDidAppear, .registerButtonDidTap, .client (.stepOne "a@b.tw"),
    .client (.stepTwo 0 "secret"), .client (.registration (.finishButtonDidTap 0 "a")),
    .client (.registration (.createUser 0 (some "a"))),
    .client (.registration (.didCreateUser 0)), .client (.registration (.setData 0 true)),
    .client (.registration (.didSetData 0)), .avatarImageViewDidTap]

theorem gate_stays_shut_sample :
    ∃ s, run (step String.length) (∅, launch none) sampleShell = some s ∧
      (s.2.appeared = true → s.2.app.currentUser = none →
        ∃ sheet, s.2.presented = some (.auth sheet)) ∧
      ∀ e t, behind e = true → step String.length s e = some t →
        ∃ uid, s.2.app.currentUser = some uid ∧ Serves uid s.2.app t.2.app e := by
  have hrun : (run (step String.length) (∅, launch none) sampleShell).isSome = true := by decide
  obtain ⟨s, hs⟩ := Option.isSome_iff_exists.mp hrun
  exact ⟨s, hs, gate_stays_shut hs⟩

end TaiwanSpots.Shell
