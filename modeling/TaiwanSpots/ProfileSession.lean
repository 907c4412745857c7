import TaiwanSpots.Pages
import TaiwanSpots.Rebuild

/-!
# The profile page across accounts

One `ProfileViewController` lives through any number of sign-outs and sign-ins.
`setupData` fetches the document of the account that is signed in when it is
called, and its callback fills in the user of the page whenever it runs. The
flag `isAdmin` of that user is what `apiButtonDidTap` checks.
-/
namespace TaiwanSpots.Profile
open Runs

/-- What a call of `setupData` waits for: the server, the callback, or the avatar. -/
inductive Stage where
  | getDocument
  | didGetDocument (reply : Reply)
  | setImage
  | finished

/-- A call of `setupData` for an account. -/
structure Setup where
  uid : String
  stage : Stage

structure Session where
  currentUser : Option String
  user : User
  hud : HUD
  setups : List Setup

def setupData (s : Session) : Session :=
  { s with
    hud := s.hud.showLoading
    setups := match s.currentUser with
      | some uid => s.setups ++ [⟨uid, .getDocument⟩]
      | none => s.setups }

/-- The user after the callback of `setupData`. A missing flag keeps the old one. -/
def fillIn (user : User) (dictionary : Dictionary) : User :=
  match dictionary.string "name", dictionary.string "email" with
  | some name, some email =>
    { user with name, email, isAdmin := (dictionary.bool "isAdmin").getD user.isAdmin }
  | _, _ => user

/-- The callback of `setupData`. -/
def didGetDocument (s : Session) : Reply → Session × Stage
  | .error | .snapshot none => (s, .finished)
  | .snapshot (some dictionary) =>
    let user := fillIn s.user dictionary
    match dictionary.string "profileImageURL" with
    | some _ => ({ s with user }, .setImage)
    | none => ({ s with user, hud := s.hud.hideLoading }, .finished)

/-- `signOut`, and whether `Auth` lets the account go. -/
def signOut (s : Session) (ok : Bool) : Session :=
  if ok then { s with currentUser := none, user := { s.user with isAdmin := false } } else s

/-- An account is signed in. A login screen that was presented by `signOut` knows
the profile page; the one of the tab bar, a registration and the sign-in with
Google do not. -/
def signIn (s : Session) (uid : String) (knowsProfile : Bool) : Session :=
  let s := { s with currentUser := some uid }
  if knowsProfile then setupData s else s

/-- The field `isAdmin` of an account's document. -/
def isAdmin (db : Firestore) (uid : String) : Option Bool :=
  (db.lookup (userRef uid)).bind fun dictionary => dictionary.bool "isAdmin"

inductive Event where
  | setupData
  | signOut (ok : Bool)
  | signIn (uid : String) (knowsProfile : Bool)
  | getDocument (setup : ℕ) (ok : Bool)
  | didGetDocument (setup : ℕ)
  | didSetImage (setup : ℕ)
  /-- A write to an account's document that leaves the field `isAdmin` alone. -/
  | write (uid : String) (dictionary : Dictionary)

def Session.setStage (s : Session) (i : ℕ) (stage : Stage) : Session :=
  { s with setups := s.setups.modify i fun setup => { setup with stage } }

def step (s : Firestore × Session) : Event → Option (Firestore × Session)
  | .setupData => some (s.1, setupData s.2)
  | .signOut ok => some (s.1, signOut s.2 ok)
  | .signIn uid knowsProfile => some (s.1, signIn s.2 uid knowsProfile)
  | .getDocument i ok =>
    s.2.setups[i]?.bind fun setup =>
      match setup.stage with
      | .getDocument =>
        some (s.1, s.2.setStage i (.didGetDocument (s.1.getDocument (userRef setup.uid) ok)))
      | _ => none
  | .didGetDocument i =>
    s.2.setups[i]?.bind fun setup =>
      match setup.stage with
      | .didGetDocument reply =>
        let r := didGetDocument s.2 reply
        some (s.1, r.1.setStage i r.2)
      | _ => none
  | .didSetImage i =>
    s.2.setups[i]?.bind fun setup =>
      match setup.stage with
      | .setImage => some (s.1, { s.2 with hud := s.2.hud.hideLoading }.setStage i .finished)
      | _ => none
  | .write uid dictionary =>
    if dictionary.bool "isAdmin" = isAdmin s.1 uid then
      some (s.1.insert (userRef uid) dictionary, s.2)
    else none

/-- Everything that one event can do. -/
inductive Step (s : Firestore × Session) : Event → Firestore × Session → Prop where
  | setupData : Step s .setupData (s.1, setupData s.2)
  | signOut {ok : Bool} : Step s (.signOut ok) (s.1, signOut s.2 ok)
  | signIn {uid : String} {knowsProfile : Bool} :
      Step s (.signIn uid knowsProfile) (s.1, signIn s.2 uid knowsProfile)
  | getDocument {i : ℕ} {ok : Bool} {setup : Setup} (hsetup : s.2.setups[i]? = some setup)
      (hstage : setup.stage = .getDocument) :
      Step s (.getDocument i ok)
        (s.1, s.2.setStage i (.didGetDocument (s.1.getDocument (userRef setup.uid) ok)))
  | didGetDocument {i : ℕ} {setup : Setup} {reply : Reply} (hsetup : s.2.setups[i]? = some setup)
      (hstage : setup.stage = .didGetDocument reply) :
      Step s (.didGetDocument i)
        (s.1, (didGetDocument s.2 reply).1.setStage i (didGetDocument s.2 reply).2)
  | didSetImage {i : ℕ} {setup : Setup} (hsetup : s.2.setups[i]? = some setup)
      (hstage : setup.stage = .setImage) :
      Step s (.didSetImage i) (s.1, { s.2 with hud := s.2.hud.hideLoading }.setStage i .finished)
  | write {uid : String} {dictionary : Dictionary}
      (hadmin : dictionary.bool "isAdmin" = isAdmin s.1 uid) :
      Step s (.write uid dictionary) (s.1.insert (userRef uid) dictionary, s.2)

theorem step_cases {s t : Firestore × Session} {e : Event} (h : step s e = some t) :
    Step s e t := by
  cases e with
  | setupData =>
    cases h
    exact .setupData
  | signOut ok =>
    cases h
    exact .signOut
  | signIn uid knowsProfile =>
    cases h
    exact .signIn
  | getDocument i ok =>
    obtain ⟨setup, hsetup, h⟩ := Option.bind_eq_some_iff.mp h
    split at h <;> cases h
    exact .getDocument hsetup ‹_›
  | didGetDocument i =>
    obtain ⟨setup, hsetup, h⟩ := Option.bind_eq_some_iff.mp h
    split at h <;> cases h
    exact .didGetDocument hsetup ‹_›
  | didSetImage i =>
    obtain ⟨setup, hsetup, h⟩ := Option.bind_eq_some_iff.mp h
    split at h <;> cases h
    exact .didSetImage hsetup ‹_›
  | write uid dictionary =>
    simp only [step] at h
    split_ifs at h with hadmin
    cases h
    exact .write hadmin

@[simp] theorem Session.setStage_user (s : Session) (i : ℕ) (stage : Stage) :
    (s.setStage i stage).user = s.user := rfl

theorem didGetDocument_user (s : Session) (dictionary : Dictionary) :
    (didGetDocument s (.snapshot (some dictionary))).1.user = fillIn s.user dictionary := by
  simp only [didGetDocument]
  split <;> rfl

theorem didGetDocument_setups (s : Session) (reply : Reply) :
    (didGetDocument s reply).1.setups = s.setups := by
  rcases reply with _ | _ | dictionary
  · rfl
  · rfl
  · simp only [didGetDocument]
    split <;> rfl

theorem fillIn_isAdmin (user : User) (dictionary : Dictionary) :
    (fillIn user dictionary).isAdmin =
      if (dictionary.string "name").isSome = true ∧ (dictionary.string "email").isSome = true then
        (dictionary.bool "isAdmin").getD user.isAdmin
      else user.isAdmin := by
  simp only [fillIn]
  cases dictionary.string "name" <;> cases dictionary.string "email" <;> simp

/-! Who holds admin rights. -/

def AdminSignedIn (s : Firestore × Session) : Prop :=
  ∃ uid, s.2.currentUser = some uid ∧ isAdmin s.1 uid = some true

/-- Only an admin who is signed in has the flag, and can start a rebuild. -/
def AdminOnly (s : Firestore × Session) : Prop :=
  (s.2.user.isAdmin = true → AdminSignedIn s) ∧
    ∀ count, (apiButtonDidTap s.2.user count).isSome = true → AdminSignedIn s

theorem adminOnly_iff {s : Firestore × Session} :
    AdminOnly s ↔ (s.2.user.isAdmin = true → AdminSignedIn s) := by
  constructor
  · exact And.left
  · intro h
    refine ⟨h, fun count hstart => h ?_⟩
    unfold apiButtonDidTap at hstart
    split_ifs at hstart with hadmin
    · exact hadmin
    · cases hstart

/-- A sign-in over a set flag is that of an admin, and the reply for an admin with
name and email is delivered only while an admin is signed in. -/
def KeepsRights (s : Firestore × Session) : Event → Prop
  | .signIn uid _ => s.2.user.isAdmin = true → isAdmin s.1 uid = some true
  | .didGetDocument i => ∀ setup dictionary, s.2.setups[i]? = some setup →
      setup.stage = .didGetDocument (.snapshot (some dictionary)) →
      (dictionary.string "name").isSome = true → (dictionary.string "email").isSome = true →
      isAdmin s.1 setup.uid = some true → AdminSignedIn s
  | _ => True

/-- The replies on their way carry the flags of the documents. -/
def Faithful (s : Firestore × Session) : Prop :=
  ∀ setup ∈ s.2.setups, ∀ dictionary, setup.stage = .didGetDocument (.snapshot (some dictionary)) →
    dictionary.bool "isAdmin" = isAdmin s.1 setup.uid

theorem isAdmin_insert {db : Firestore} {uid : String} {dictionary : Dictionary}
    (h : dictionary.bool "isAdmin" = isAdmin db uid) (uid' : String) :
    isAdmin (db.insert (userRef uid) dictionary) uid' = isAdmin db uid' := by
  by_cases hu : uid' = uid
  · subst hu
    rw [← h]
    simp [isAdmin]
  · have hne : userRef uid' ≠ userRef uid := by simpa [userRef] using hu
    simp [isAdmin, AList.lookup_insert_ne hne]

theorem Faithful.setStage {db : Firestore} {s : Session} {i : ℕ} {stage : Stage}
    (h : Faithful (db, s)) (hstage : ∀ setup, s.setups[i]? = some setup → ∀ dictionary,
      stage = .didGetDocument (.snapshot (some dictionary)) →
      dictionary.bool "isAdmin" = isAdmin db setup.uid) : Faithful (db, s.setStage i stage) :=
  forall_mem_modify h hstage

theorem Faithful.setupData {db : Firestore} {s : Session} (h : Faithful (db, s)) :
    Faithful (db, setupData s) := by
  unfold Profile.setupData
  split
  · exact forall_mem_concat h (by simp)
  · exact h

theorem step_faithful {s t : Firestore × Session} {e : Event} (hs : Faithful s)
    (h : step s e = some t) : Faithful t := by
  cases step_cases h with
  | setupData => exact hs.setupData
  | @signOut ok => cases ok <;> exact hs
  | @signIn uid knowsProfile =>
    cases knowsProfile with
    | true => exact Faithful.setupData (s := { s.2 with currentUser := some uid }) hs
    | false => exact hs
  | @getDocument i ok setup hsetup hstage =>
    refine hs.setStage fun setup' hsetup' dictionary heq => ?_
    obtain rfl : setup = setup' := Option.some.inj (hsetup.symm.trans hsetup')
    cases ok
    · cases heq
    · have hdoc : s.1.lookup (userRef setup.uid) = some dictionary := by
        simpa [Firestore.getDocument] using heq
      simp [isAdmin, hdoc]
  | @didGetDocument i setup reply hsetup hstage =>
    refine Faithful.setStage (s := (didGetDocument s.2 reply).1) ?_ fun _ _ dictionary heq => ?_
    · intro setup hmem
      exact hs setup (didGetDocument_setups s.2 reply ▸ hmem)
    · rcases reply with _ | _ | dictionary'
      · cases heq
      · cases heq
      · simp only [didGetDocument] at heq
        split at heq <;> cases heq
  | didSetImage hsetup hstage =>
    exact Faithful.setStage (s := { s.2 with hud := s.2.hud.hideLoading }) hs (by simp)
  | write hadmin =>
    intro setup hmem dictionary heq
    rw [isAdmin_insert hadmin]
    exact hs setup hmem dictionary heq

/-- One event keeps the rights with an admin exactly when it is guarded. -/
theorem step_adminOnly_iff {s t : Firestore × Session} {e : Event} (hfaithful : Faithful s)
    (hs : AdminOnly s) (h : step s e = some t) : AdminOnly t ↔ KeepsRights s e := by
  rw [adminOnly_iff] at hs ⊢
  cases step_cases h with
  | setupData => simpa [KeepsRights, setupData, AdminSignedIn] using hs
  | @signOut ok =>
    cases ok
    · simpa [KeepsRights, signOut] using hs
    · simp [KeepsRights, signOut]
  | @signIn uid knowsProfile =>
    cases knowsProfile <;> simp [KeepsRights, signIn, setupData, AdminSignedIn]
  | getDocument hsetup hstage => simpa [KeepsRights, Session.setStage, AdminSignedIn] using hs
  | @didGetDocument i setup reply hsetup hstage =>
    have hkeeps : KeepsRights s (.didGetDocument i) ↔ ∀ dictionary,
        reply = .snapshot (some dictionary) → (dictionary.string "name").isSome = true →
        (dictionary.string "email").isSome = true → isAdmin s.1 setup.uid = some true →
        AdminSignedIn s := by
      constructor
      · intro hk dictionary hreply
        exact hk setup dictionary hsetup (hreply ▸ hstage)
      · intro hk setup' dictionary hsetup' hstage'
        obtain rfl : setup = setup' := Option.some.inj (hsetup.symm.trans hsetup')
        exact hk dictionary (Stage.didGetDocument.inj (hstage.symm.trans hstage'))
    rw [hkeeps]
    rcases reply with _ | _ | dictionary
    · exact iff_of_true hs nofun
    · exact iff_of_true hs nofun
    · have hflag := hfaithful setup (List.mem_of_getElem? hsetup) dictionary hstage
      have hsame : AdminSignedIn (s.1,
          (didGetDocument s.2 (.snapshot (some dictionary))).1.setStage i
            (didGetDocument s.2 (.snapshot (some dictionary))).2) ↔ AdminSignedIn s := by
        simp only [didGetDocument]
        split <;> exact Iff.rfl
      rw [hsame, Session.setStage_user, didGetDocument_user]
      simp only [Reply.snapshot.injEq, Option.some.injEq, forall_eq']
      rw [fillIn_isAdmin, hflag]
      split_ifs with hfields
      · simp only [hfields, forall_const]
        cases hadmin : isAdmin s.1 setup.uid with
        | none => exact iff_of_true hs nofun
        | some b => cases b <;> simp
      · refine iff_of_true hs fun hname hemail => absurd ⟨hname, hemail⟩ hfields
  | didSetImage hsetup hstage => simpa [KeepsRights, Session.setStage, AdminSignedIn] using hs
  | @write uid dictionary hadmin =>
    have hsame : AdminSignedIn (s.1.insert (userRef uid) dictionary, s.2) ↔ AdminSignedIn s := by
      simp only [AdminSignedIn, isAdmin_insert hadmin]
    simpa [KeepsRights, hsame] using hs

/-- Over any sign-outs, sign-ins, calls of `setupData` and late replies, admin rights
stay with an admin exactly when every event keeps them there. -/
theorem admin_rights_iff {s t : Firestore × Session} {es : List Event} (hsetups : s.2.setups = [])
    (hs : AdminOnly s) (hr : run step s es = some t) :
    Always step AdminOnly s es ↔ Along step KeepsRights s es :=
  always_iff_along (I := Faithful) (fun _ _ _ hf h => step_faithful hf h)
    (fun _ _ _ hf hm h => step_adminOnly_iff hf hm h) (by simp [Faithful, hsetups]) hs hr

/-- The documents of an admin `a` and of an account `b` without the flag. -/
def sampleUsers : Firestore :=
  (AList.singleton (userRef "a") [("name", .string "a"), ("email", .string "a"),
    ("isAdmin", .bool true)]).insert (userRef "b") [("name", .string "b"), ("email", .string "b")]

/-- The page as it is loaded while `a` is signed in. -/
def sampleSession : Firestore × Session :=
  (sampleUsers, ⟨some "a", User.init "" "" "", ⟨none, 0, []⟩, []⟩)

/-- The reply for `a` arrives once `a` has signed out and `b` has signed in. -/
def sampleEvents : List Event :=
  [.setupData, .getDocument 0 true, .signOut true, .signIn "b" true, .didGetDocument 0]

theorem adminOnly_sampleSession : AdminOnly sampleSession :=
  adminOnly_iff.mpr nofun

/-- The reply for `a` arrives before `a` signs out, and `b` loads the page, too. -/
def sampleVisits : List Event :=
  [.setupData, .getDocument 0 true, .didGetDocument 0, .signOut true, .signIn "b" true,
    .getDocument 1 true, .didGetDocument 1]

theorem admin_rights_iff_sample :
    ∃ t, run step sampleSession sampleVisits = some t ∧
      Always step AdminOnly sampleSession sampleVisits ∧
      Along step KeepsRights sampleSession sampleVisits := by
  have h := @admin_rights_iff sampleSession _ sampleVisits rfl adminOnly_sampleSession rfl
  have hg : Along step KeepsRights sampleSession sampleVisits := by
    refine along_step trivial rfl <| along_step trivial rfl <| along_step ?_ rfl <|
      along_step trivial rfl <| along_step nofun rfl <| along_step trivial rfl <|
      along_step ?_ rfl trivial
    · intro setup dictionary _ _ _ _ _
      exact ⟨"a", rfl, rfl⟩
    · rintro setup dictionary ⟨⟩ ⟨⟩ _ _ ⟨⟩
  exact ⟨_, rfl, h.mpr hg, hg⟩

/-- The account `b` is left with the rights of `a`. -/
theorem admin_rights_leak :
    ∃ es, AdminOnly sampleSession ∧ (run step sampleSession es).isSome = true ∧
      ¬ Always step AdminOnly sampleSession es := by
  refine ⟨sampleEvents, adminOnly_sampleSession, rfl, fun h => ?_⟩
  have hlast := (((((h.2 _ rfl).2 _ rfl).2 _ rfl).2 _ rfl).2 _ rfl).1 rfl
  obtain ⟨uid, huid, hadmin⟩ := hlast
  obtain rfl : uid = "b" := (Option.some.inj huid).symm
  exact absurd hadmin (by decide)

end TaiwanSpots.Profile
