import TaiwanSpots.Client

/-!
# The account on the profile page

A login asks the profile page to fetch the document of its account; a registration
writes such a document and leaves the page alone. The callback of a fetch fills in
the page whoever is signed in by then. Once everything has been answered the page
therefore shows the account that is signed in exactly when the reply that came last
left the page with its fields and no registration has given it a document since.
-/
namespace TaiwanSpots.Client
open Runs

/-- The name and the address, where a document has both. -/
def nameAndEmail (d : Dictionary) : Option (String × String) :=
  match d.string "name", d.string "email" with
  | some name, some email => some (name, email)
  | _, _ => none

/-- What a reply fills in. -/
def delivered : Reply → Option (String × String)
  | .snapshot (some dictionary) => nameAndEmail dictionary
  | _ => none

def App.currentUser (s : App) : Option String := s.tabs.device.currentUser

/-- What the document of the account that is signed in says. -/
def account (s : Firestore × App) : Option (String × String) :=
  s.2.currentUser.bind fun uid => (s.1.lookup (userRef uid)).bind nameAndEmail

/-- What the profile page shows. -/
def shown (s : App) : String × String := (s.profile.user.name, s.profile.user.email)

/-- No call of `setupData` waits for its document. -/
def Settled (s : Firestore × App) : Prop :=
  ∀ setup ∈ s.2.profile.setups, setup.stage = .setImage ∨ setup.stage = .finished

/-- Once every call has its document, the page shows the account that is signed in. -/
def ShowsAccount (s : Firestore × App) : Prop :=
  Settled s → ∀ fields, account s = some fields → shown s.2 = fields

/-- The call of `setupData` at index `i` waits for its document. -/
def Waits (s : App) (i : ℕ) : Prop :=
  ∃ setup, s.profile.setups[i]? = some setup ∧
    (setup.stage = .getDocument ∨ ∃ reply, setup.stage = .didGetDocument reply)

/-- The last reply to be delivered carries the fields of the account, or none and the page
shows those of the account; a registration writes the document of the account while no call
waits only if the page shows its fields. -/
def KeepsAccount (s : Firestore × App) : Event → Prop
  | .profile (.didGetDocument i) =>
    ∀ setup reply fields, s.2.profile.setups[i]? = some setup →
      setup.stage = .didGetDocument reply → account s = some fields →
      delivered reply = some fields ∨ (delivered reply = none ∧ shown s.2 = fields) ∨
        ∃ j, j ≠ i ∧ Waits s.2 j
  | .registration (.setData i true) =>
    ∀ a uid userDict fields, s.2.registration.attempts[i]? = some a →
      a.stage = .setData uid userDict → s.2.currentUser = some uid →
      nameAndEmail userDict = some fields → shown s.2 = fields ∨ ∃ j, Waits s.2 j
  | _ => True

/-- The sign-outs, the logins on the screens that the profile page presents, the
registrations, and the calls of `setupData`. -/
def Event.ofAccounts : Event → Bool
  | .stepOne _ | .stepTwo _ _ | .registration _ | .loginButtonDidTap _ _ true | .didSignIn _ _ |
    .profile _ => true
  | _ => false

theorem settled_iff {s : Firestore × App} : Settled s ↔ ∀ i, ¬ Waits s.2 i := by
  constructor
  · rintro h i ⟨setup, hsetup, hstage⟩
    have hover := h setup (List.mem_of_getElem? hsetup)
    rcases hstage with hstage | ⟨reply, hstage⟩ <;> simp [hstage] at hover
  · intro h setup hmem
    obtain ⟨i, hsetup⟩ := List.mem_iff_getElem?.mp hmem
    cases hstage : setup.stage with
    | getDocument => exact absurd ⟨setup, hsetup, .inl hstage⟩ (h i)
    | didGetDocument reply => exact absurd ⟨setup, hsetup, .inr ⟨reply, hstage⟩⟩ (h i)
    | setImage => exact .inl rfl
    | finished => exact .inr rfl

/-- The page shows the account, or waits for a document. -/
theorem showsAccount_iff {s : Firestore × App} :
    ShowsAccount s ↔ ∀ fields, account s = some fields → shown s.2 = fields ∨ ∃ i, Waits s.2 i := by
  unfold ShowsAccount
  rw [settled_iff]
  constructor
  · intro h fields hfields
    by_cases hwaits : ∃ i, Waits s.2 i
    · exact .inr hwaits
    · exact .inl (h (not_exists.mp hwaits) fields hfields)
  · intro h hsettled fields hfields
    exact (h fields hfields).resolve_right (not_exists.mpr hsettled)

theorem showsAccount_of_waits {s : Firestore × App} {i : ℕ} (h : Waits s.2 i) : ShowsAccount s :=
  showsAccount_iff.mpr fun _ _ => .inr ⟨i, h⟩

theorem showsAccount_of_account_none {s : Firestore × App} (h : account s = none) :
    ShowsAccount s := by
  intro _ fields hfields
  rw [h] at hfields
  cases hfields

/-- The account, what is shown of it and the calls that wait stay as they are. -/
theorem showsAccount_congr {s t : Firestore × App} (haccount : account t = account s)
    (hshown : shown t.2 = shown s.2) (hwaits : ∀ i, Waits t.2 i ↔ Waits s.2 i) :
    ShowsAccount t ↔ ShowsAccount s := by
  simp only [showsAccount_iff, haccount, hshown, hwaits]

theorem waits_congr {s t : App} (h : t.profile.setups = s.profile.setups) (i : ℕ) :
    Waits t i ↔ Waits s i := by
  unfold Waits
  rw [h]

theorem ShowsAccount.of_eq {s t : Firestore × App} (hs : ShowsAccount s) (hdb : t.1 = s.1)
    (hshown : shown t.2 = shown s.2) (hsetups : t.2.profile.setups = s.2.profile.setups)
    (huser : t.2.currentUser = s.2.currentUser) : ShowsAccount t := by
  refine (showsAccount_congr ?_ hshown (waits_congr hsetups)).mpr hs
  unfold account
  rw [hdb, huser]

/-- A document of an account is written. -/
theorem insert_showsAccount_iff {s : Firestore × App} {t : App} (hs : ShowsAccount s)
    (hshown : shown t = shown s.2) (hsetups : t.profile.setups = s.2.profile.setups)
    (huser : t.currentUser = s.2.currentUser) (uid : String) (userDict : Dictionary) :
    ShowsAccount (s.1.insert (userRef uid) userDict, t) ↔
      ∀ fields, s.2.currentUser = some uid → nameAndEmail userDict = some fields →
        shown s.2 = fields ∨ ∃ j, Waits s.2 j := by
  by_cases hcurrent : s.2.currentUser = some uid
  · have haccount : account (s.1.insert (userRef uid) userDict, t) = nameAndEmail userDict := by
      simp [account, huser, hcurrent]
    simp only [showsAccount_iff, haccount, hshown, waits_congr hsetups, hcurrent, forall_const]
  · refine iff_of_true ?_ fun _ h => absurd h hcurrent
    refine (showsAccount_congr ?_ hshown (waits_congr hsetups)).mpr hs
    simp only [account, huser]
    cases hother : s.2.currentUser with
    | none => rfl
    | some uid' =>
      have hne : userRef uid' ≠ userRef uid := by
        intro heq
        exact hcurrent (by rw [hother, (DocumentReference.mk.inj heq).2])
      simp [AList.lookup_insert_ne hne]

theorem registration_showsAccount_iff {s : Firestore × App} {r : Firestore × Registration.Flow}
    {e : Registration.Event} (writes : List Write) (hs : ShowsAccount s)
    (h : Registration.step (s.1, s.2.flow) e = some r) :
    ShowsAccount (r.1, (s.2.setFlow r.2).log writes) ↔ KeepsAccount s (.registration e) := by
  cases Registration.step_cases h with
  | finishButtonDidTap huser => exact iff_of_true (hs.of_eq rfl rfl rfl rfl) trivial
  | @created i uid a ha hstage huid =>
    have hnone : s.1.lookup (userRef uid) = none := by simpa using huid.2
    refine iff_of_true (showsAccount_of_account_none ?_) trivial
    show (some uid).bind _ = _
    simp [hnone]
  | refused ha hstage => exact iff_of_true (hs.of_eq rfl rfl rfl rfl) trivial
  | @didCreateUser i a ok ha hstage =>
    have huser : (Registration.didCreateUser s.2.flow a ok).1.currentUser = s.2.currentUser := by
      unfold Registration.didCreateUser
      split_ifs
      · split <;> rfl
      · rfl
    exact iff_of_true (hs.of_eq rfl rfl rfl huser) trivial
  | @setData i a ok uid userDict ha hstage =>
    cases ok with
    | false => exact iff_of_true (hs.of_eq rfl rfl rfl rfl) trivial
    | true =>
      refine (insert_showsAccount_iff hs rfl rfl rfl uid userDict).trans ?_
      constructor
      · intro hguard a' uid' userDict' fields ha' hstage'
        obtain rfl : a = a' := Option.some.inj (ha.symm.trans ha')
        obtain ⟨rfl, rfl⟩ := Registration.Stage.setData.inj (hstage.symm.trans hstage')
        exact hguard fields
      · intro hguard fields
        exact hguard a uid userDict fields ha hstage
  | didSetData ha hstage => exact iff_of_true (hs.of_eq rfl rfl rfl rfl) trivial

/-- The page waits for the document of the account that is signed in. -/
theorem setupData_showsAccount (db : Firestore) (s : App) :
    ShowsAccount (db, s.setSession (Profile.setupData s.session)) := by
  cases huser : s.tabs.device.currentUser with
  | none =>
    apply showsAccount_of_account_none
    show s.tabs.device.currentUser.bind _ = _
    rw [huser]
    rfl
  | some uid =>
    have hsetup : (s.setSession (Profile.setupData s.session)).profile.setups[
        s.profile.setups.length]? = some ⟨uid, .getDocument⟩ := by
      simp [App.setSession, App.setAuth, Profile.setupData, App.session, huser]
    exact showsAccount_of_waits ⟨_, hsetup, .inl rfl⟩

theorem account_setSession {s : Firestore × App} {p : Profile.Session}
    (huser : p.currentUser = s.2.currentUser) (i : ℕ) (stage : Profile.Stage) :
    account (s.1, s.2.setSession (p.setStage i stage)) = account s := by
  show p.currentUser.bind _ = _
  rw [huser]
  rfl

/-- A call that has its document waits no longer, and the others are left as they are. -/
theorem waits_setStage {s : App} {p : Profile.Session} (hsetups : p.setups = s.profile.setups)
    {stage : Profile.Stage} (hover : stage = .setImage ∨ stage = .finished) (i j : ℕ) :
    Waits (s.setSession (p.setStage i stage)) j ↔ j ≠ i ∧ Waits s j := by
  have hget : (s.setSession (p.setStage i stage)).profile.setups[j]? =
      (s.profile.setups.modify i fun setup => { setup with stage })[j]? := by rw [← hsetups]; rfl
  simp only [Waits, hget, List.getElem?_modify]
  by_cases hij : i = j
  · subst hij
    refine iff_of_false ?_ fun h => h.1 rfl
    rintro ⟨setup, hsetup, hstage⟩
    obtain ⟨setup', -, rfl⟩ := Option.map_eq_some_iff.mp hsetup
    rcases hover with rfl | rfl <;> simp at hstage
  · simp [hij, Ne.symm hij]

theorem fillIn_shown (user : User) (d : Dictionary) :
    ((Profile.fillIn user d).name, (Profile.fillIn user d).email) =
      (nameAndEmail d).getD (user.name, user.email) := by
  unfold Profile.fillIn nameAndEmail
  cases d.string "name" <;> cases d.string "email" <;> rfl

/-- Everything that the callback of a fetch does to what the page shows. -/
theorem didGetDocument_shown (s : Profile.Session) (reply : Reply) :
    (((Profile.didGetDocument s reply).1.user.name, (Profile.didGetDocument s reply).1.user.email) =
        (delivered reply).getD (s.user.name, s.user.email)) ∧
      (Profile.didGetDocument s reply).1.currentUser = s.currentUser ∧
      ((Profile.didGetDocument s reply).2 = .setImage ∨
        (Profile.didGetDocument s reply).2 = .finished) := by
  rcases reply with _ | _ | dictionary
  · exact ⟨rfl, rfl, .inr rfl⟩
  · exact ⟨rfl, rfl, .inr rfl⟩
  · rw [Profile.didGetDocument_user]
    refine ⟨fillIn_shown .., ?_⟩
    simp only [Profile.didGetDocument]
    cases dictionary.string "profileImageURL" <;> simp

theorem didGetDocument_showsAccount_iff {s : Firestore × App} {i : ℕ} {setup : Profile.Setup}
    {reply : Reply} (hsetup : s.2.profile.setups[i]? = some setup)
    (hstage : setup.stage = .didGetDocument reply) :
    ShowsAccount (s.1, s.2.setSession ((Profile.didGetDocument s.2.session reply).1.setStage i
        (Profile.didGetDocument s.2.session reply).2)) ↔
      KeepsAccount s (.profile (.didGetDocument i)) := by
  obtain ⟨hshown, huser, hover⟩ := didGetDocument_shown s.2.session reply
  have hpage : shown (s.2.setSession ((Profile.didGetDocument s.2.session reply).1.setStage i
      (Profile.didGetDocument s.2.session reply).2)) = (delivered reply).getD (shown s.2) := hshown
  have hwaits := waits_setStage (Profile.didGetDocument_setups s.2.session reply) hover i
  have hfills : ∀ fields, (delivered reply).getD (shown s.2) = fields ↔
      delivered reply = some fields ∨ (delivered reply = none ∧ shown s.2 = fields) := by
    intro fields
    cases delivered reply <;> simp
  simp only [showsAccount_iff, account_setSession huser, hpage, hwaits, hfills, or_assoc]
  constructor
  · intro h setup' reply' fields hsetup' hstage'
    obtain rfl : setup = setup' := Option.some.inj (hsetup.symm.trans hsetup')
    obtain rfl := Profile.Stage.didGetDocument.inj (hstage.symm.trans hstage')
    exact h fields
  · intro h fields
    exact h setup reply fields hsetup hstage

theorem profile_showsAccount_iff {s : Firestore × App} {r : Firestore × Profile.Session}
    {e : Profile.Event} (he : ofProfile e = true) (hs : ShowsAccount s)
    (h : Profile.step (s.1, s.2.session) e = some r) :
    ShowsAccount (r.1, s.2.setSession r.2) ↔ KeepsAccount s (.profile e) := by
  cases Profile.step_cases h with
  | setupData => exact iff_of_true (setupData_showsAccount s.1 s.2) trivial
  | @signOut ok =>
    cases ok with
    | true => exact iff_of_true (showsAccount_of_account_none rfl) trivial
    | false => exact iff_of_true (hs.of_eq rfl rfl rfl rfl) trivial
  | signIn | write => cases he
  | @getDocument i ok setup hsetup hstage =>
    have hwaits : Waits (s.2.setSession (s.2.session.setStage i
        (.didGetDocument (s.1.getDocument (userRef setup.uid) ok)))) i := by
      refine ⟨⟨setup.uid, .didGetDocument (s.1.getDocument (userRef setup.uid) ok)⟩, ?_,
        .inr ⟨_, rfl⟩⟩
      show (s.2.session.setups.modify i _)[i]? = _
      rw [List.getElem?_modify_eq, hsetup]
      rfl
    exact iff_of_true (showsAccount_of_waits hwaits) trivial
  | didGetDocument hsetup hstage => exact didGetDocument_showsAccount_iff hsetup hstage
  | @didSetImage i setup hsetup hstage =>
    refine iff_of_true (showsAccount_iff.mpr fun fields hfields => ?_) trivial
    rcases showsAccount_iff.mp hs fields hfields with hshown | ⟨j, hj⟩
    · exact .inl hshown
    · have hne : j ≠ i := by
        rintro rfl
        obtain ⟨setup', hsetup', hwaits⟩ := hj
        obtain rfl : setup = setup' := Option.some.inj (hsetup.symm.trans hsetup')
        rcases hwaits with hwaits | ⟨reply, hwaits⟩ <;> simp [hstage] at hwaits
      exact .inr ⟨j, (waits_setStage (p := { s.2.session with hud := s.2.session.hud.hideLoading })
        rfl (.inr rfl) i j).mpr ⟨hne, hj⟩⟩

/-- The screens of the logins were presented by the profile page. -/
def KnowProfile (s : Firestore × App) : Prop :=
  ∀ (i : ℕ) login, s.2.logins[i]?.join = some login → login.knowsProfile = true

theorem step_knowProfile {count : String → ℕ} {s t : Firestore × App} {e : Event}
    (he : e.ofAccounts = true) (hs : KnowProfile s) (h : step count s e = some t) :
    KnowProfile t := by
  cases e with
  | stepOne email =>
    simp only [step] at h
    split_ifs at h <;> exact Option.some.inj h ▸ hs
  | stepTwo j password =>
    obtain ⟨email, hemail, rfl⟩ := Option.map_eq_some_iff.mp h
    split_ifs <;> exact hs
  | registration e =>
    obtain ⟨r, hr, rfl⟩ := Option.map_eq_some_iff.mp h
    exact hs
  | loginButtonDidTap email password knowsProfile =>
    cases knowsProfile with
    | false => cases he
    | true =>
      obtain rfl := Option.some.inj h
      intro i login hlogin
      rcases getElem?_concat_cases (Option.join_eq_some_iff.mp hlogin) with hold | ⟨-, hnew⟩
      · exact hs i login (Option.join_eq_some_iff.mpr hold)
      · obtain rfl := Option.some.inj hnew
        rfl
  | didSignIn i uid =>
    obtain ⟨login, hlogin, rfl⟩ := Option.map_eq_some_iff.mp h
    have hothers : KnowProfile (s.1, { s.2 with logins := s.2.logins.set i none }) := by
      intro j login' hlogin'
      have hj := Option.join_eq_some_iff.mp hlogin'
      simp only [List.getElem?_set] at hj
      split_ifs at hj
      · simp at hj
      · exact hs j login' (Option.join_eq_some_iff.mpr hj)
    cases uid <;> exact hothers
  | profile e =>
    simp only [step] at h
    split_ifs at h
    obtain ⟨r, hr, rfl⟩ := Option.map_eq_some_iff.mp h
    exact hs
  | didFinishPickingMedia | didPutData | didDownloadURL | updateData | tabs => cases he

/-- One event keeps the account on the page exactly when it meets its guard. -/
theorem step_showsAccount_iff {count : String → ℕ} {s t : Firestore × App} {e : Event}
    (he : e.ofAccounts = true) (hknow : KnowProfile s) (hs : ShowsAccount s)
    (h : step count s e = some t) : ShowsAccount t ↔ KeepsAccount s e := by
  cases e with
  | stepOne email =>
    refine iff_of_true ?_ trivial
    simp only [step] at h
    split_ifs at h
    · obtain rfl := Option.some.inj h
      exact hs.of_eq rfl rfl rfl rfl
    · obtain rfl := Option.some.inj h
      exact hs
  | stepTwo j password =>
    obtain ⟨email, hemail, rfl⟩ := Option.map_eq_some_iff.mp h
    refine iff_of_true ?_ trivial
    split_ifs
    · exact hs.of_eq rfl rfl rfl rfl
    · exact hs
  | registration e =>
    obtain ⟨r, hr, rfl⟩ := Option.map_eq_some_iff.mp h
    exact registration_showsAccount_iff _ hs hr
  | loginButtonDidTap email password knowsProfile =>
    obtain rfl := Option.some.inj h
    exact iff_of_true (hs.of_eq rfl rfl rfl rfl) trivial
  | didSignIn i uid =>
    obtain ⟨login, hlogin, rfl⟩ := Option.map_eq_some_iff.mp h
    refine iff_of_true ?_ trivial
    cases uid with
    | none => exact hs.of_eq rfl rfl rfl rfl
    | some uid =>
      simp only [App.didSignIn, Profile.signIn, hknow i login hlogin, if_true]
      exact setupData_showsAccount s.1
        ({ s.2 with logins := s.2.logins.set i none }.setAuth (some uid) s.2.tabs.device.hud)
  | profile e =>
    simp only [step] at h
    split_ifs at h with hprofile
    obtain ⟨r, hr, rfl⟩ := Option.map_eq_some_iff.mp h
    exact profile_showsAccount_iff hprofile hs hr
  | didFinishPickingMedia | didPutData | didDownloadURL | updateData | tabs => cases he

theorem showsAccount_launch (db : Firestore) (currentUser : Option String) :
    ShowsAccount (db, launch currentUser) := by
  cases currentUser with
  | none => exact showsAccount_of_account_none rfl
  | some uid => exact showsAccount_of_waits (i := 0) ⟨⟨uid, .getDocument⟩, rfl, .inl rfl⟩

/-- Over any sign-outs, logins, registrations and late replies, the profile page shows the
account that is signed in whenever every call of `setupData` has its document exactly when
every event keeps the account. -/
theorem profile_shows_account_iff {count : String → ℕ} {db : Firestore}
    {currentUser : Option String} {es : List Event} {t : Firestore × App}
    (he : ∀ e ∈ es, e.ofAccounts = true)
    (hr : run (step count) (db, launch currentUser) es = some t) :
    Always (step count) ShowsAccount (db, launch currentUser) es ↔
      Along (step count) KeepsAccount (db, launch currentUser) es :=
  always_iff_along_of_steps (J := fun s => ShowsAccount s ∧ KnowProfile s) (fun _ hJ => hJ.1)
    (fun _ _ _ hJ he hm hs => (step_showsAccount_iff he hJ.2 hJ.1 hm).mp hs)
    (fun _ _ _ hJ he hm hguard => ⟨(step_showsAccount_iff he hJ.2 hJ.1 hm).mpr hguard,
      step_knowProfile he hJ.2 hm⟩)
    he ⟨showsAccount_launch db currentUser, nofun⟩ hr

/-- The account `a` is signed in when the app starts, and its document arrives. -/
def sampleArrival : List Event := [.profile (.getDocument 0 true), .profile (.didGetDocument 0)]

/-- The account `a` signs out before its document arrives, and `b` signs in. -/
def sampleLogin : List Event :=
  [.profile (.getDocument 0 true), .profile (.signOut true), .loginButtonDidTap "b" "secret" true,
    .didSignIn 0 (some "b"), .profile (.didGetDocument 0), .profile (.getDocument 1 true),
    .profile (.didGetDocument 1)]

/-- What the call of `setupData` at index `i` is about to fill in. -/
def filling (s : App) (i : ℕ) : Option (String × String) :=
  s.profile.setups[i]?.bind fun setup =>
    match setup.stage with
    | .didGetDocument reply => delivered reply
    | _ => none

theorem keepsAccount_of_filling {s : Firestore × App} {i : ℕ} (h : filling s.2 i = account s) :
    KeepsAccount s (.profile (.didGetDocument i)) := by
  intro setup reply fields hsetup hstage hfields
  rw [filling, hsetup, Option.bind_some, hstage] at h
  exact .inl (h.trans hfields)

theorem keepsAccount_sampleLogin :
    Along (step String.length) KeepsAccount (Profile.sampleUsers, launch (some "a"))
      sampleLogin := by
  refine along_step trivial rfl <| along_step trivial rfl <| along_step trivial rfl <|
    along_step trivial rfl <| along_step ?_ rfl <| along_step trivial rfl <|
    along_step ?_ rfl trivial
  · exact fun _ _ _ _ _ _ => .inr (.inr ⟨1, by decide, ⟨_, rfl, .inl rfl⟩⟩)
  · exact keepsAccount_of_filling rfl

/-- Then `b` signs out, an account `c` is registered, and the page is set up for it before its
document is written. -/
def sampleNewAccount : List Event :=
  sampleLogin ++ [.profile (.signOut true), .stepOne "c@d.tw", .stepTwo 0 "secret",
    .registration (.finishButtonDidTap 0 "c"), .registration (.createUser 0 (some "c")),
    .registration (.didCreateUser 0), .profile .setupData]

/-- The document is written and fetched. -/
def sampleReturn : List Event :=
  sampleNewAccount ++ [.registration (.setData 0 true)] ++
    [.registration (.didSetData 0), .profile (.getDocument 2 true)] ++
    [.profile (.didGetDocument 2)]

theorem keepsAccount_sampleReturn :
    Along (step String.length) KeepsAccount (Profile.sampleUsers, launch (some "a"))
      sampleReturn := by
  have hfree : ∀ e ∈ [Event.profile (.signOut true), .stepOne "c@d.tw", .stepTwo 0 "secret",
      .registration (.finishButtonDidTap 0 "c"), .registration (.createUser 0 (some "c")),
      .registration (.didCreateUser 0), .profile .setupData], ∀ s, KeepsAccount s e := by
    simp [KeepsAccount]
  refine along_concat.mpr ⟨along_append.mpr ⟨along_concat.mpr ⟨along_append.mpr
    ⟨keepsAccount_sampleLogin, fun m _ => along_of_free hfree⟩, fun m hm => ?_⟩, fun m _ =>
    ⟨trivial, fun m' _ => ⟨trivial, fun m'' _ => trivial⟩⟩⟩, fun m hm => ?_⟩
  · have hwaits : ((run (step String.length) (Profile.sampleUsers, launch (some "a"))
        sampleNewAccount).map fun m => m.2.profile.setups[2]?) =
          some (some ⟨"c", .getDocument⟩) := rfl
    rw [hm] at hwaits
    exact fun _ _ _ _ _ _ _ _ => .inr ⟨2, ⟨_, Option.some.inj hwaits, .inl rfl⟩⟩
  · have hfilling : ((run (step String.length) (Profile.sampleUsers, launch (some "a"))
        (sampleNewAccount ++ [.registration (.setData 0 true)] ++
          [.registration (.didSetData 0), .profile (.getDocument 2 true)])).map fun m =>
          (filling m.2 2, account m)) = some (some ("c", "c@d.tw"), some ("c", "c@d.tw")) := by
      decide
    rw [hm] at hfilling
    obtain ⟨hfills, haccount⟩ := Prod.mk.inj (Option.some.inj hfilling)
    exact keepsAccount_of_filling (hfills.trans haccount.symm)

/-- The page shows `b`, and in the end `c`. -/
theorem profile_shows_account_iff_sample :
    ∃ m t, run (step String.length) (Profile.sampleUsers, launch (some "a")) sampleLogin = some m ∧
      shown m.2 = ("b", "b") ∧
      run (step String.length) (Profile.sampleUsers, launch (some "a")) sampleReturn = some t ∧
      shown t.2 = ("c", "c@d.tw") ∧
      Always (step String.length) ShowsAccount (Profile.sampleUsers, launch (some "a"))
        sampleReturn := by
  have hlogin : ((run (step String.length) (Profile.sampleUsers, launch (some "a"))
      sampleLogin).map fun m => shown m.2) = some ("b", "b") := by decide
  have hreturn : ((run (step String.length) (Profile.sampleUsers, launch (some "a"))
      sampleReturn).map fun t => shown t.2) = some ("c", "c@d.tw") := by decide
  obtain ⟨m, hm, hshown⟩ := Option.map_eq_some_iff.mp hlogin
  obtain ⟨t, ht, hshown'⟩ := Option.map_eq_some_iff.mp hreturn
  exact ⟨m, t, hm, hshown, ht, hshown', (@profile_shows_account_iff String.length
    Profile.sampleUsers (some "a") sampleReturn t (by decide) ht).mpr keepsAccount_sampleReturn⟩

/-- The account `a` signs out once it is shown, and an account `c` is registered. -/
def sampleSwitch : List Event :=
  sampleArrival ++ [.profile (.signOut true), .stepOne "c@d.tw", .stepTwo 0 "secret",
    .registration (.finishButtonDidTap 0 "c"), .registration (.createUser 0 (some "c")),
    .registration (.didCreateUser 0), .registration (.setData 0 true),
    .registration (.didSetData 0)]

/-- The page still shows the account `a`, with no request in flight. -/
theorem registration_leaves_page :
    ∃ es t, (∀ e ∈ es, Event.ofAccounts e = true) ∧
      run (step String.length) (Profile.sampleUsers, launch (some "a")) es = some t ∧
      (∀ setup ∈ t.2.profile.setups, setup.stage = .finished) ∧ t.2.flow.idle = true ∧
      t.2.logins = [] ∧ account t = some ("c", "c@d.tw") ∧ shown t.2 = ("a", "a") ∧
      ¬ ShowsAccount t := by
  refine ⟨sampleSwitch, _, by decide, rfl, ?_, rfl, rfl, rfl, rfl, fun h => ?_⟩
  · intro setup hmem
    obtain rfl := List.mem_singleton.mp hmem
    rfl
  · have hshown := h (fun setup hmem => ?_) ("c", "c@d.tw") rfl
    · exact absurd hshown (by decide)
    · obtain rfl := List.mem_singleton.mp hmem
      exact .inr rfl

end TaiwanSpots.Client
