import TaiwanSpots.EmailFormat
import TaiwanSpots.Registration

/-!
# The screens of a registration

Three screens follow each other on the navigation stack of the login, all of them
with one text field and one button that is enabled while the field is not empty.
The address and the password are checked by the screen on which they are entered
and handed to the screen that it opens; the name is not checked at all but for its
button. A request that has been sent survives the screen that has sent it.
-/
namespace TaiwanSpots.Wizard
open Runs

/-- What a screen does with its text, and what it was opened with. The user of the
last screen is an object, named by its place in `stepThrees`. -/
inductive Kind where
  | stepOne
  | stepTwo (email : String)
  | stepThree (user : ℕ)
  deriving DecidableEq, Repr

/-- A `RegisterBasicViewController`. `accepted` records the text with which its button
has last opened the next screen; no callback reads it. -/
structure Screen where
  kind : Kind
  text : String
  isEnabled : Bool
  accepted : Option String
  deriving DecidableEq, Repr

/-- A screen as it is opened. -/
def Screen.init (kind : Kind) : Screen := ⟨kind, "", false, none⟩

/-- `emailTextFieldEditingChanged`, the handler of every field. -/
def Screen.editingChanged (screen : Screen) (text : String) : Screen :=
  { screen with text, isEnabled := !text.isEmpty }

def Screen.accept (screen : Screen) : Screen := { screen with accepted := some screen.text }

/-- The stack above the login, the top screen first, and the requests. -/
structure State where
  screens : List Screen
  flow : Registration.Flow

/-- `finishButtonDidTap` of the top screen. -/
def finishButtonDidTap (count : String → ℕ) (s : State) (top : Screen) (below : List Screen) :
    Option State :=
  match top.kind with
  | .stepOne =>
    some (if EmailFormat.validateEmail top.text then
      { s with screens := Screen.init (.stepTwo top.text) :: top.accept :: below }
      else s)
  | .stepTwo email =>
    some (if 6 ≤ count top.text then
      { screens := Screen.init (.stepThree s.flow.stepThrees.length) :: top.accept :: below
        flow := { s.flow with
          stepThrees := s.flow.stepThrees ++ [User.init email "" top.text] } }
      else s)
  | .stepThree user =>
    (Registration.finishButtonDidTap s.flow user top.text).map fun flow => { s with flow }

/-- A success dismisses the screens, if the one that has sent the request is among them. -/
def dismiss (s : State) : Registration.Event → List Screen
  | .didSetData i =>
    match s.flow.attempts[i]? with
    | some ⟨user, _, _, .didSetData true⟩ =>
      if ∃ screen ∈ s.screens, screen.kind = .stepThree user then [] else s.screens
    | _ => s.screens
  | _ => s.screens

/-- `editingChanged` names the place of the screen in the stack. `auth` stands for a
login or a sign-out elsewhere. -/
inductive Event where
  | registerButtonDidTap
  | editingChanged (screen : ℕ) (text : String)
  | finishButtonDidTap
  | back
  | auth (currentUser : Option String)
  | request (e : Registration.Event)
  deriving DecidableEq, Repr

/-- The answers and the callbacks of a request. -/
def ofRequest : Registration.Event → Bool
  | .finishButtonDidTap _ _ => false
  | _ => true

/-- `count` is the number of characters of a string. -/
def step (count : String → ℕ) (s : Firestore × State) : Event → Option (Firestore × State)
  | .registerButtonDidTap =>
    match s.2.screens with
    | [] => some (s.1, { s.2 with screens := [Screen.init .stepOne] })
    | _ :: _ => none
  | .editingChanged k text =>
    if k < s.2.screens.length then
      some (s.1, { s.2 with screens := s.2.screens.modify k fun screen =>
        screen.editingChanged text })
    else none
  | .finishButtonDidTap =>
    match s.2.screens with
    | [] => none
    | top :: below =>
      if top.isEnabled then
        (finishButtonDidTap count s.2 top below).map fun t => (s.1, t)
      else none
  | .back =>
    match s.2.screens with
    | [] => none
    | _ :: below => some (s.1, { s.2 with screens := below })
  | .auth currentUser => some (s.1, { s.2 with flow := { s.2.flow with currentUser } })
  | .request e =>
    if ofRequest e then
      (Registration.step (s.1, s.2.flow) e).map fun r => (r.1, ⟨dismiss s.2 e, r.2⟩)
    else none

/-- The address and the password of the `createUser` call that an event makes. -/
def createUser (s : State) : Event → Option (String × String)
  | .finishButtonDidTap =>
    match s.screens with
    | ⟨.stepThree user, _, true, _⟩ :: _ =>
      s.flow.stepThrees[user]?.map fun user => (user.email, user.password)
    | _ => none
  | _ => none

/-- The document that the server is to write in an event. -/
def setData (s : State) : Event → Option Dictionary
  | .request (.setData i _) =>
    s.flow.attempts[i]?.bind fun a =>
      match a.stage with
      | .setData _ userDict => some userDict
      | _ => none
  | _ => none

/-- What the screens below have accepted is what `createUser` is called with, and what
they have checked; a document that is written has a name. -/
def Checked (count : String → ℕ) (s : Firestore × State) (e : Event) : Prop :=
  (∀ email password, createUser s.2 e = some (email, password) →
    EmailFormat.validateEmail email = true ∧ 6 ≤ count password ∧
      ∃ three two one below, s.2.screens = three :: two :: one :: below ∧
        two.kind = .stepTwo email ∧ two.accepted = some password ∧
        one.kind = .stepOne ∧ one.accepted = some email) ∧
  ∀ userDict, setData s.2 e = some userDict →
    ∃ name, userDict.string "name" = some name ∧ name ≠ ""

/-- The app before the first registration. -/
def launch (accounts : List Registration.Account) (currentUser : Option String) (hud : HUD) :
    State :=
  ⟨[], ⟨accounts, currentUser, hud, [], []⟩⟩

/-- What an edit leaves alone. -/
def Screen.entry (screen : Screen) : Kind × Option String := (screen.kind, screen.accepted)

/-- The stack grows by one screen at a time, each opened with what those below have
accepted. -/
inductive Opened (count : String → ℕ) (users : List User) : List (Kind × Option String) → Prop where
  | auth : Opened count users []
  | stepOne (accepted : Option String) : Opened count users [(.stepOne, accepted)]
  | stepTwo {email : String} (hemail : EmailFormat.validateEmail email = true)
      (accepted : Option String) :
      Opened count users [(.stepTwo email, accepted), (.stepOne, some email)]
  | stepThree {j : ℕ} {user : User} (huser : users[j]? = some user)
      (hemail : EmailFormat.validateEmail user.email = true) (hpassword : 6 ≤ count user.password)
      (accepted : Option String) :
      Opened count users [(.stepThree j, accepted), (.stepTwo user.email, some user.password),
        (.stepOne, some user.email)]

/-- The user behind an attempt has a name, and so has the document that it is to write. -/
def Named (users : List User) (a : Registration.Attempt) : Prop :=
  (∃ user, users[a.stepThree]? = some user ∧ user.name ≠ "") ∧
    ∀ uid userDict, a.stage = .setData uid userDict →
      ∃ name, userDict.string "name" = some name ∧ name ≠ ""

structure Inv (count : String → ℕ) (s : State) : Prop where
  enabled : ∀ screen ∈ s.screens, screen.isEnabled = true → screen.text ≠ ""
  opened : Opened count s.flow.stepThrees (s.screens.map Screen.entry)
  named : ∀ a ∈ s.flow.attempts, Named s.flow.stepThrees a

section
variable {count : String → ℕ} {users : List User} {entries : List (Kind × Option String)}

theorem Opened.tail {entry : Kind × Option String} (h : Opened count users (entry :: entries)) :
    Opened count users entries := by
  cases h with
  | stepOne accepted => exact .auth
  | stepTwo hemail accepted => exact .stepOne _
  | stepThree huser hemail hpassword accepted => exact .stepTwo hemail _

/-- Later users keep the address and the password of the earlier ones. -/
theorem Opened.mono {users' : List User} (h : Opened count users entries)
    (hkeep : ∀ (j : ℕ) user, users[j]? = some user →
      ∃ user', users'[j]? = some user' ∧ user'.email = user.email ∧
        user'.password = user.password) : Opened count users' entries := by
  cases h with
  | auth => exact .auth
  | stepOne accepted => exact .stepOne _
  | stepTwo hemail accepted => exact .stepTwo hemail _
  | @stepThree j user huser hemail hpassword accepted =>
    obtain ⟨user', huser', hsame, hword⟩ := hkeep j user huser
    rw [← hsame, ← hword]
    exact .stepThree huser' (hsame ▸ hemail) (hword ▸ hpassword) _

/-- The top screen may accept a text while nothing stands on it. -/
theorem Opened.accept {kind : Kind} {accepted accepted' : Option String}
    (h : Opened count users ((kind, accepted) :: entries)) :
    Opened count users ((kind, accepted') :: entries) := by
  cases h with
  | stepOne accepted => exact .stepOne _
  | stepTwo hemail accepted => exact .stepTwo hemail _
  | stepThree huser hemail hpassword accepted => exact .stepThree huser hemail hpassword _

end

theorem Opened.below_stepThree {count : String → ℕ} {users : List User}
    {entries : List (Kind × Option String)} {j : ℕ} {accepted : Option String}
    (h : Opened count users ((.stepThree j, accepted) :: entries)) :
    ∃ user, users[j]? = some user ∧ EmailFormat.validateEmail user.email = true ∧
      6 ≤ count user.password ∧
      entries = [(.stepTwo user.email, some user.password), (.stepOne, some user.email)] := by
  cases h with
  | stepThree huser hemail hpassword accepted => exact ⟨_, huser, hemail, hpassword, rfl⟩

theorem dismiss_cases (s : State) (e : Registration.Event) :
    dismiss s e = s.screens ∨ dismiss s e = [] := by
  cases e with
  | didSetData i =>
    simp only [dismiss]
    split
    · split_ifs
      · exact .inr rfl
      · exact .inl rfl
    · exact .inl rfl
  | finishButtonDidTap | createUser | didCreateUser | setData => exact .inl rfl

theorem map_entry_modify (screens : List Screen) (k : ℕ) (text : String) :
    (screens.modify k fun screen => screen.editingChanged text).map Screen.entry =
      screens.map Screen.entry := by
  have hsame := @map_modify _ _ Screen.entry (fun screen => screen.editingChanged text) id
    (fun _ => rfl) screens k
  rw [hsame, List.modify_id]

/-- Users that are renamed keep a name, those that are added take none away. -/
theorem Named.mono {users users' : List User} {a : Registration.Attempt} (h : Named users a)
    (hkeep : ∀ (j : ℕ) user, users[j]? = some user → user.name ≠ "" →
      ∃ user', users'[j]? = some user' ∧ user'.name ≠ "") : Named users' a := by
  obtain ⟨⟨user, huser, hname⟩, hdoc⟩ := h
  exact ⟨hkeep _ user huser hname, hdoc⟩

theorem Named.setStage {users : List User} {a : Registration.Attempt} {stage : Registration.Stage}
    (h : Named users a) (hstage : ∀ uid userDict, stage = .setData uid userDict →
      ∃ name, userDict.string "name" = some name ∧ name ≠ "") : Named users { a with stage } :=
  ⟨h.1, hstage⟩

/-- A request keeps the users, and its document has a name. -/
theorem request_named {db : Firestore} {flow : Registration.Flow}
    {t : Firestore × Registration.Flow} {e : Registration.Event} (he : ofRequest e = true)
    (hs : ∀ a ∈ flow.attempts, Named flow.stepThrees a)
    (h : Registration.step (db, flow) e = some t) :
    t.2.stepThrees = flow.stepThrees ∧ ∀ a ∈ t.2.attempts, Named flow.stepThrees a := by
  cases Registration.step_cases h with
  | finishButtonDidTap huser => cases he
  | created ha hstage huid =>
    refine ⟨rfl, forall_mem_modify hs fun a ha => ⟨(hs a (List.mem_of_getElem? ha)).1, ?_⟩⟩
    rintro uid userDict ⟨⟩
  | refused ha hstage =>
    exact ⟨rfl, forall_mem_modify hs fun a ha =>
      (hs a (List.mem_of_getElem? ha)).setStage (by simp)⟩
  | @didCreateUser i a ok ha hstage =>
    obtain ⟨user, huser, hname⟩ := (hs a (List.mem_of_getElem? ha)).1
    have hcall : (Registration.didCreateUser flow a ok).1.stepThrees = flow.stepThrees ∧
        (Registration.didCreateUser flow a ok).1.attempts = flow.attempts ∧
        ∀ uid userDict, (Registration.didCreateUser flow a ok).2 = .setData uid userDict →
          userDict = user.dictionary := by
      cases ok with
      | false => simp [Registration.didCreateUser]
      | true =>
        cases hcurrent : flow.currentUser with
        | none => simp [Registration.didCreateUser, hcurrent]
        | some uid => simp [Registration.didCreateUser, hcurrent, huser]
    refine ⟨hcall.1, forall_mem_modify (hcall.2.1 ▸ hs) fun b hb => ?_⟩
    refine (hs b (hcall.2.1 ▸ List.mem_of_getElem? hb)).setStage fun uid userDict heq => ?_
    obtain rfl := hcall.2.2 uid userDict heq
    exact ⟨user.name, rfl, hname⟩
  | setData ha hstage =>
    exact ⟨rfl, forall_mem_modify hs fun a ha =>
      (hs a (List.mem_of_getElem? ha)).setStage (by simp)⟩
  | didSetData ha hstage =>
    refine ⟨rfl, forall_mem_modify hs fun a ha => (hs a (List.mem_of_getElem? ha)).setStage ?_⟩
    simp [Registration.didSetData]

/-- A screen that is opened has its button off, the one below keeps its text. -/
theorem enabled_push {top : Screen} {below : List Screen}
    (h : ∀ screen ∈ top :: below, screen.isEnabled = true → screen.text ≠ "") (kind : Kind) :
    ∀ screen ∈ Screen.init kind :: top.accept :: below,
      screen.isEnabled = true → screen.text ≠ "" := by
  intro screen hmem hon
  rcases List.mem_cons.mp hmem with rfl | hmem
  · cases hon
  · rcases List.mem_cons.mp hmem with rfl | hmem
    · exact h top (by simp) hon
    · exact h screen (by simp [hmem]) hon

/-- A tap on the top screen, whose text is not empty. -/
theorem tap_inv {count : String → ℕ} {s t : State} {top : Screen} {below : List Screen}
    (hs : Inv count s) (hscreens : s.screens = top :: below) (htext : top.text ≠ "")
    (h : finishButtonDidTap count s top below = some t) : Inv count t := by
  obtain ⟨kind, text, isEnabled, accepted⟩ := top
  have hopened := hs.opened
  have henabled := hs.enabled
  rw [hscreens] at hopened henabled
  cases kind with
  | stepOne =>
    obtain rfl := Option.some.inj h
    split_ifs with hemail
    · refine ⟨enabled_push henabled _, ?_, hs.named⟩
      cases below with
      | nil => exact .stepTwo hemail none
      | cons one below => cases hopened
    · exact hs
  | stepTwo email =>
    obtain rfl := Option.some.inj h
    split_ifs with hpassword
    · refine ⟨enabled_push henabled _, ?_, fun a ha =>
        (hs.named a ha).mono fun j user huser hname =>
          ⟨user, getElem?_concat_of_some huser, hname⟩⟩
      simp only [List.map_cons, Screen.entry, Screen.init, Screen.accept] at hopened ⊢
      generalize below.map Screen.entry = entries at hopened ⊢
      cases hopened with
      | stepTwo hemail accepted =>
        exact @Opened.stepThree _ _ _ (User.init email "" text) (by simp) hemail hpassword none
    · exact hs
  | stepThree j =>
    obtain ⟨flow, hflow, rfl⟩ := Option.map_eq_some_iff.mp h
    obtain ⟨user, huser, rfl⟩ := Option.map_eq_some_iff.mp hflow
    refine ⟨hs.enabled, hs.opened.mono fun k user' huser' => ?_,
      forall_mem_concat (fun a ha => ?_) ?_⟩
    · simp only [List.getElem?_modify, huser']
      split_ifs with hjk
      · exact ⟨_, rfl, rfl, rfl⟩
      · exact ⟨_, rfl, rfl, rfl⟩
    · refine (hs.named a ha).mono fun k user' huser' hname => ?_
      simp only [List.getElem?_modify, huser']
      split_ifs with hjk
      · exact ⟨_, rfl, htext⟩
      · exact ⟨_, rfl, hname⟩
    · refine ⟨⟨{ user with name := text }, ?_, htext⟩, by simp⟩
      simp [huser]

theorem step_inv {count : String → ℕ} {s t : Firestore × State} {e : Event}
    (hs : Inv count s.2) (h : step count s e = some t) : Inv count t.2 := by
  cases e with
  | registerButtonDidTap =>
    simp only [step] at h
    split at h
    · rename_i hscreens
      obtain rfl := Option.some.inj h
      refine ⟨by simp [Screen.init], .stepOne none, hs.named⟩
    · cases h
  | editingChanged k text =>
    simp only [step] at h
    split_ifs at h with hk
    obtain rfl := Option.some.inj h
    refine ⟨forall_mem_modify hs.enabled fun screen _ => ?_, ?_, hs.named⟩
    · simp [Screen.editingChanged]
    · rw [map_entry_modify]
      exact hs.opened
  | finishButtonDidTap =>
    simp only [step] at h
    split at h
    · cases h
    · rename_i top below hscreens
      split_ifs at h with henabled
      obtain ⟨w, hw, rfl⟩ := Option.map_eq_some_iff.mp h
      exact tap_inv hs hscreens (hs.enabled top (by simp [hscreens]) henabled) hw
  | back =>
    simp only [step] at h
    split at h
    · cases h
    · rename_i top below hscreens
      obtain rfl := Option.some.inj h
      have hopened := hs.opened
      rw [hscreens] at hopened
      exact ⟨fun screen hmem => hs.enabled screen (by simp [hscreens, hmem]), hopened.tail,
        hs.named⟩
  | auth currentUser =>
    obtain rfl := Option.some.inj h
    exact ⟨hs.enabled, hs.opened, hs.named⟩
  | request e =>
    simp only [step] at h
    split_ifs at h with he
    obtain ⟨r, hr, rfl⟩ := Option.map_eq_some_iff.mp h
    obtain ⟨husers, hnamed⟩ := request_named he hs.named hr
    refine ⟨?_, ?_, husers ▸ hnamed⟩
    · rcases dismiss_cases s.2 e with hdismiss | hdismiss <;> rw [hdismiss]
      · exact hs.enabled
      · simp
    · rw [husers]
      rcases dismiss_cases s.2 e with hdismiss | hdismiss <;> rw [hdismiss]
      · exact hs.opened
      · exact .auth

theorem inv_checked {count : String → ℕ} {s : Firestore × State} {e : Event} (hs : Inv count s.2) :
    Checked count s e := by
  constructor
  · intro email password hcall
    cases e with
    | finishButtonDidTap =>
      simp only [createUser] at hcall
      split at hcall
      · rename_i j text accepted below hscreens
        obtain ⟨user, huser, hcall⟩ := Option.map_eq_some_iff.mp hcall
        obtain ⟨rfl, rfl⟩ := Prod.mk.inj hcall
        have hopened := hs.opened
        rw [hscreens] at hopened
        obtain ⟨user', huser', hemail, hpassword, hbelow⟩ := hopened.below_stepThree
        obtain rfl : user = user' := Option.some.inj (huser.symm.trans huser')
        obtain ⟨two, ones, rfl, htwo, hones⟩ := List.map_eq_cons_iff.mp hbelow
        obtain ⟨one, none, rfl, hone, -⟩ := List.map_eq_cons_iff.mp hones
        obtain ⟨hkind, haccepted⟩ := Prod.mk.inj htwo
        obtain ⟨hkind', haccepted'⟩ := Prod.mk.inj hone
        exact ⟨hemail, hpassword, _, two, one, none, hscreens, hkind, haccepted, hkind', haccepted'⟩
      · cases hcall
    | registerButtonDidTap | editingChanged | back | auth | request => cases hcall
  · intro userDict hdoc
    cases e with
    | request e =>
      cases e with
      | setData i ok =>
        obtain ⟨a, ha, hdoc⟩ := Option.bind_eq_some_iff.mp hdoc
        split at hdoc
        · rename_i uid userDict' hstage
          obtain rfl := Option.some.inj hdoc
          exact (hs.named a (List.mem_of_getElem? ha)).2 uid _ hstage
        · cases hdoc
      | finishButtonDidTap | createUser | didCreateUser | didSetData => cases hdoc
    | registerButtonDidTap | editingChanged | finishButtonDidTap | back | auth => cases hdoc

/-- Whatever is typed, tapped and answered, only what the screens have checked reaches
`createUser`, and only documents with a name are written. -/
theorem wizard_checks (count : String → ℕ) (db : Firestore) (accounts : List Registration.Account)
    (currentUser : Option String) (hud : HUD) (es : List Event) :
    Along (step count) (Checked count) (db, launch accounts currentUser hud) es := by
  refine along_of_invariant (I := fun s : Firestore × State => Inv count s.2)
    (fun s e hs _ => inv_checked hs) (fun s e t hs _ h => step_inv hs h) ?_ along_true
  exact ⟨by simp [launch], .auth, by simp [launch]⟩

end TaiwanSpots.Wizard
