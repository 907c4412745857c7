import TaiwanSpots.Client

/-!
# Typed passwords and the writes of the client

A registration writes the password as a field of the new account's document. Apart
from this field no write depends on a password: the state of the client with all
passwords blanked out evolves on its own.
-/
namespace TaiwanSpots.Client
open Runs

/-- Blank out the password of an account's document. -/
def redact (d : Dictionary) : Dictionary :=
  d.map fun field => if field.1 = "password" then (field.1, .string "") else field

theorem lookup_redact (d : Dictionary) {key : String} (h : key ≠ "password") :
    (redact d).lookup key = d.lookup key := by
  induction d with
  | nil => rfl
  | cons field d ih =>
    obtain ⟨name, value⟩ := field
    simp only [redact] at ih
    by_cases hname : name = "password"
    · subst hname
      have hne : (key == "password") = false := by simpa using h
      simp [redact, List.lookup_cons, hne, ih]
    · simp [redact, hname, List.lookup_cons, ih]

theorem isNone_lookup_redact (d : Dictionary) (key : String) :
    ((redact d).lookup key).isNone = (d.lookup key).isNone := by
  induction d with
  | nil => rfl
  | cons field d ih =>
    obtain ⟨name, value⟩ := field
    simp only [redact] at ih
    by_cases hname : name = "password"
    · subst hname
      cases hkey : key == "password" <;> simp [redact, List.lookup_cons, hkey, ih]
    · cases hkey : key == name <;> simp [redact, hname, List.lookup_cons, hkey, ih]

theorem favoriteSpots_redact (d : Dictionary) :
    (redact d).strings "favoriteSpots" = d.strings "favoriteSpots" := by
  simp only [Dictionary.strings, lookup_redact d (show "favoriteSpots" ≠ "password" by decide)]

theorem string_redact (d : Dictionary) {key : String} (h : key ≠ "password") :
    (redact d).string key = d.string key := by
  simp only [Dictionary.string, lookup_redact d h]

theorem bool_redact (d : Dictionary) {key : String} (h : key ≠ "password") :
    (redact d).bool key = d.bool key := by
  simp only [Dictionary.bool, lookup_redact d h]

theorem double_redact (d : Dictionary) {key : String} (h : key ≠ "password") :
    (redact d).double key = d.double key := by
  simp only [Dictionary.double, lookup_redact d h]

theorem redact_merge (d data : Dictionary) :
    redact (d.merge data) = (redact d).merge (redact data) := by
  have hkey : ∀ field : String × Any,
      (if field.1 = "password" then (field.1, Any.string "") else field).1 = field.1 := by
    intro field
    split_ifs <;> rfl
  simp only [Dictionary.merge, redact, List.map_append, List.filter_map, Function.comp_def, hkey]
  have hsame := isNone_lookup_redact data
  simp only [redact] at hsame
  simp only [hsame]

/-- Documents of other collections are no accounts. -/
def redactAt (ref : DocumentReference) (d : Dictionary) : Dictionary :=
  if ref.collection = .users then redact d else d

@[simp] theorem redactAt_userRef (uid : String) (d : Dictionary) :
    redactAt (userRef uid) d = redact d := rfl

def redactDb (db : Firestore) : Firestore where
  entries := db.entries.map (.map id redactAt)
  nodupKeys := by
    have hnodup : db.entries.keys.Nodup := db.nodupKeys
    show List.Nodup (List.map Sigma.fst _)
    rw [List.map_map]
    exact hnodup

theorem lookup_redactDb (db : Firestore) (ref : DocumentReference) :
    (redactDb db).lookup ref = (db.lookup ref).map (redactAt ref) :=
  List.dlookup_map₂ ref

theorem erase_redactDb (db : Firestore) (ref : DocumentReference) :
    redactDb (db.erase ref) = (redactDb db).erase ref := by
  apply AList.ext
  simp only [redactDb, Firestore.entries_erase, List.kerase, List.eraseP_map]
  rfl

theorem insert_redactDb (db : Firestore) (ref : DocumentReference) (d : Dictionary) :
    redactDb (db.insert ref d) = (redactDb db).insert ref (redactAt ref d) := by
  apply AList.ext
  have herase := congrArg AList.entries (erase_redactDb db ref)
  simp only [redactDb, Firestore.entries_erase] at herase
  simp only [redactDb, AList.entries_insert, List.map_cons, herase]
  rfl

theorem write_redactDb (db : Firestore) (ref : DocumentReference) (data : Option Dictionary) :
    redactDb (db.write ref data) = (redactDb db).write ref (data.map (redactAt ref)) := by
  cases data with
  | some data => exact insert_redactDb ..
  | none => exact erase_redactDb ..

theorem updateData_redactDb (db : Firestore) (uid : String) (data : Dictionary) :
    (redactDb db).updateData (userRef uid) (redact data) =
      (db.updateData (userRef uid) data).map redactDb := by
  simp only [Firestore.updateData, lookup_redactDb, Option.map_map]
  cases db.lookup (userRef uid) with
  | none => rfl
  | some d => simp [insert_redactDb, redact_merge]

theorem documents_redactDb (db : Firestore) {c : Collection} (hc : c ≠ .users) :
    (redactDb db).documents c = db.documents c := by
  simp only [Firestore.documents, redactDb, List.filterMap_map]
  congr 1
  funext entry
  by_cases hcollection : entry.1.collection = c
  · have hne : entry.1.collection ≠ .users := hcollection ▸ hc
    simp [Sigma.map, redactAt, hcollection, hc]
  · simp [Sigma.map, hcollection]

def redactReply : Reply → Reply
  | .error => .error
  | .snapshot data => .snapshot (data.map redact)

theorem getDocument_redactDb (db : Firestore) (uid : String) (ok : Bool) :
    (redactDb db).getDocument (userRef uid) ok =
      redactReply (db.getDocument (userRef uid) ok) := by
  cases ok with
  | false => rfl
  | true =>
    simp only [Firestore.getDocument, lookup_redactDb, if_true, redactReply]
    rfl

/-- A fetch brings the document as it is or with its password blanked out. -/
theorem getDocument_redactDb_or (db : Firestore) (ref : DocumentReference) (ok : Bool) :
    (redactDb db).getDocument ref ok = redactReply (db.getDocument ref ok) ∨
      (redactDb db).getDocument ref ok = db.getDocument ref ok := by
  cases ok with
  | false => exact .inl rfl
  | true =>
    simp only [Firestore.getDocument, lookup_redactDb, if_true, redactReply]
    by_cases husers : ref.collection = .users
    · left
      cases db.lookup ref with
      | none => rfl
      | some d => simp [redactAt, husers]
    · right
      cases db.lookup ref with
      | none => rfl
      | some d => simp [redactAt, husers]

/-- A spot has no password. -/
theorem initFirestoreDictionary_redact (d : Dictionary) :
    Spot.initFirestoreDictionary (redact d) = Spot.initFirestoreDictionary d := by
  simp (disch := decide) only [Spot.initFirestoreDictionary, string_redact, double_redact]

def redactStage : FavoriteButton.Stage → FavoriteButton.Stage
  | .didGetDocument reply => .didGetDocument (redactReply reply)
  | .updateData dictionary ids => .updateData (redact dictionary) ids
  | stage => stage

def redactTap (tap : FavoriteButton.Tap) : FavoriteButton.Tap :=
  { tap with stage := redactStage tap.stage }

def redactDevice (d : FavoriteButton.Device) : FavoriteButton.Device :=
  { d with taps := d.taps.map redactTap }

def redactTapping (s : Firestore × FavoriteButton.Device) : Firestore × FavoriteButton.Device :=
  (redactDb s.1, redactDevice s.2)

theorem setStage_redactDevice (d : FavoriteButton.Device) (i : ℕ) (stage : FavoriteButton.Stage) :
    redactDevice (d.setStage i stage) = (redactDevice d).setStage i (redactStage stage) := by
  have htaps := @map_modify _ _ redactTap (fun tap => { tap with stage })
    (fun tap => { tap with stage := redactStage stage }) (fun _ => rfl) d.taps i
  simp only [redactDevice, FavoriteButton.Device.setStage, htaps]

theorem didGetDocument_redactReply (p : Pages) (adding : Bool) (cell : SpotCollectionViewCell)
    (reply : Reply) : FavoriteButton.didGetDocument p adding cell (redactReply reply) =
      ((FavoriteButton.didGetDocument p adding cell reply).1,
        redactStage (FavoriteButton.didGetDocument p adding cell reply).2) := by
  rcases reply with _ | _ | dictionary
  · rfl
  · rfl
  · have hnew : FavoriteButton.newFavoriteArray adding cell.spot.id (redact dictionary) =
        FavoriteButton.newFavoriteArray adding cell.spot.id dictionary := by
      simp only [FavoriteButton.newFavoriteArray, FavoriteButton.addFavorite,
        FavoriteButton.removeFavorite, favoriteSpots_redact]
    simp only [redactReply, Option.map_some, FavoriteButton.didGetDocument, hnew]
    cases FavoriteButton.newFavoriteArray adding cell.spot.id dictionary with
    | some ids => rfl
    | none => cases adding <;> rfl

theorem update_redactDb (db : Firestore) (uid : String) (ids : Option (List String)) (ok : Bool) :
    FavoriteButton.update (redactDb db) uid ids ok =
      (redactDb (FavoriteButton.update db uid ids ok).1,
        (FavoriteButton.update db uid ids ok).2) := by
  have hdata : redact (FavoriteButton.favoriteData ids) = FavoriteButton.favoriteData ids := by
    cases ids <;> rfl
  have hupdate := updateData_redactDb db uid (FavoriteButton.favoriteData ids)
  rw [hdata] at hupdate
  cases ok with
  | false => rfl
  | true =>
    simp only [FavoriteButton.update, if_true, hupdate]
    cases db.updateData (userRef uid) (FavoriteButton.favoriteData ids) <;> rfl

@[simp] theorem redactDevice_pages (d : FavoriteButton.Device) :
    (redactDevice d).pages = d.pages := rfl

theorem favoriteButtonDidTap_redactDevice (d : FavoriteButton.Device) (c : ℕ) :
    FavoriteButton.favoriteButtonDidTap (redactDevice d) c =
      (FavoriteButton.favoriteButtonDidTap d c).map redactDevice := by
  have huser : (redactDevice d).currentUser = d.currentUser := rfl
  simp only [FavoriteButton.favoriteButtonDidTap, redactDevice_pages, huser]
  cases d.pages.cell c with
  | none => rfl
  | some cell =>
    cases d.currentUser with
    | none => rfl
    | some uid => simp [redactDevice, redactTap, redactStage]

theorem step_redactTapping {s t : Firestore × FavoriteButton.Device} {e : FavoriteButton.Event}
    (h : FavoriteButton.step s e = some t) :
    FavoriteButton.step (redactTapping s) e = some (redactTapping t) := by
  have hget : ∀ {i : ℕ} {tap : FavoriteButton.Tap}, s.2.taps[i]? = some tap →
      (redactDevice s.2).taps[i]? = some (redactTap tap) := by
    intro i tap htap
    simp [redactDevice, htap]
  cases e with
  | cellForItemAt c owner item =>
    obtain ⟨pages, hp, rfl⟩ := Option.map_eq_some_iff.mp h
    exact Option.map_eq_some_iff.mpr ⟨pages, hp, rfl⟩
  | favoriteButtonDidTap c =>
    obtain ⟨d, hd, rfl⟩ := Option.map_eq_some_iff.mp h
    refine Option.map_eq_some_iff.mpr ⟨redactDevice d, ?_, rfl⟩
    rw [redactTapping, favoriteButtonDidTap_redactDevice, hd, Option.map_some]
  | getDocument i ok =>
    cases FavoriteButton.step_cases h with | getDocument htap hstage =>
    simp only [FavoriteButton.step, redactTapping, hget htap, Option.bind_some,
      FavoriteButton.advance, redactTap, hstage, redactStage, getDocument_redactDb,
      setStage_redactDevice]
  | didGetDocument i =>
    cases FavoriteButton.step_cases h with | didGetDocument htap hstage hcell =>
    simp only [FavoriteButton.step, redactTapping, hget htap, Option.bind_some,
      FavoriteButton.advance, redactTap, hstage, redactStage, redactDevice_pages, hcell,
      didGetDocument_redactReply, setStage_redactDevice]
    rfl
  | updateData i ok =>
    cases FavoriteButton.step_cases h with | updateData htap hstage =>
    simp only [FavoriteButton.step, redactTapping, hget htap, Option.bind_some,
      FavoriteButton.advance, redactTap, hstage, redactStage, update_redactDb,
      setStage_redactDevice]
  | didUpdateData i =>
    cases FavoriteButton.step_cases h with | @didUpdateData _ tap ok ids cell htap hstage hcell =>
    have hover : redactStage (FavoriteButton.didUpdateData s.2.pages s.2.hud tap.adding cell ok
        ids).2.2 = (FavoriteButton.didUpdateData s.2.pages s.2.hud tap.adding cell ok ids).2.2 := by
      rcases FavoriteButton.didUpdateData_stage s.2.pages s.2.hud tap.adding cell ok ids with h | h
      · rw [h]
        rfl
      · rw [h]
        rfl
    simp only [redactTapping, setStage_redactDevice, hover]
    simp only [FavoriteButton.step, hget htap, Option.bind_some, FavoriteButton.advance, redactTap,
      hstage, redactStage, redactDevice_pages, hcell]
    rfl
  | reloadData i =>
    cases FavoriteButton.step_cases h with | reloadData htap hstage hcell =>
    simp only [FavoriteButton.step, redactTapping, hget htap, Option.bind_some,
      FavoriteButton.advance, redactTap, hstage, redactStage, redactDevice_pages, hcell,
      setStage_redactDevice]
    rfl

/-! The tabs read documents of accounts for their favourites only. -/

theorem city_didGetSpot_redactDb (db : Firestore) (s : CityPage.Loading) (ref : DocumentReference)
    (ok : Bool) : CityPage.didGetSpot Screens.unseen s ((redactDb db).getDocument ref ok) =
      CityPage.didGetSpot Screens.unseen s (db.getDocument ref ok) := by
  rcases getDocument_redactDb_or db ref ok with hreply | hreply
  · rw [hreply]
    rcases db.getDocument ref ok with _ | _ | dict
    · rfl
    · rfl
    · simp only [redactReply, Option.map_some, CityPage.didGetSpot, initFirestoreDictionary_redact]
  · rw [hreply]

theorem favorites_didGetSpot_redactDb (db : Firestore) (s : FavoritesPage.Loading) (i : ℕ)
    (ref : DocumentReference) (ok : Bool) :
    FavoritesPage.didGetSpot s i ((redactDb db).getDocument ref ok) =
      FavoritesPage.didGetSpot s i (db.getDocument ref ok) := by
  rcases getDocument_redactDb_or db ref ok with hreply | hreply
  · rw [hreply]
    rcases db.getDocument ref ok with _ | _ | dict
    · rfl
    · rfl
    · simp only [redactReply, Option.map_some, FavoritesPage.didGetSpot,
        initFirestoreDictionary_redact]
  · rw [hreply]

theorem cityStep_redactDb (db : Firestore) (s : CityPage.Loading) (e : CityPage.Event) :
    CityPage.step (redactDb db) Screens.unseen s e = CityPage.step db Screens.unseen s e := by
  cases e with
  | didGetSpot i ok => simp only [CityPage.step, city_didGetSpot_redactDb]
  | didGetUser ok =>
    simp only [CityPage.step, getDocument_redactDb]
    congr 1
    funext uid
    rcases db.getDocument (userRef uid) ok with _ | _ | data
    · rfl
    · rfl
    · simp only [redactReply, Option.map_some, CityPage.didGetUser,
        favoriteSpots_redact]
  | notify => rfl

theorem favoritesStep_redactDb (db : Firestore) (s : FavoritesPage.Loading)
    (e : FavoritesPage.Event) :
    FavoritesPage.step (redactDb db) s e = FavoritesPage.step db s e := by
  cases e with
  | didGetSpot i ok => simp only [FavoritesPage.step, favorites_didGetSpot_redactDb]
  | didGetUser ok =>
    simp only [FavoritesPage.step, getDocument_redactDb]
    congr 1
    funext uid
    rcases db.getDocument (userRef uid) ok with _ | _ | data
    · rfl
    · rfl
    · simp only [redactReply, Option.map_some, FavoritesPage.didGetUser,
        favoriteSpots_redact]
  | notify => rfl

def redactTabs (s : Screens.Tabs) : Screens.Tabs := { s with device := redactDevice s.device }

/-- What another client writes is redacted as well. -/
def redactTabsEvent : Screens.Event → Screens.Event
  | .write ref data => .write ref (data.map (redactAt ref))
  | e => e

theorem step_redactTabs {s t : Firestore × Screens.Tabs} {e : Screens.Event}
    (h : Screens.step s e = some t) :
    Screens.step (redactDb s.1, redactTabs s.2) (redactTabsEvent e) =
      some (redactDb t.1, redactTabs t.2) := by
  cases e with
  | signOut | signIn =>
    obtain rfl := Option.some.inj h
    rfl
  | write ref data =>
    obtain rfl := Option.some.inj h
    simp only [redactTabsEvent, Screens.step, write_redactDb]
  | didGetDocuments ok =>
    cases Screens.step_cases h with | didGetDocuments hlisting =>
    have hlisting' : (redactTabs s.2).listing = true := hlisting
    simp only [redactTabsEvent, Screens.step, hlisting', if_true,
      documents_redactDb s.1 (show Collection.cities ≠ .users by decide)]
    rfl
  | reloadData =>
    obtain ⟨searchViewController, hreload, rfl⟩ := Option.map_eq_some_iff.mp h
    exact Option.map_eq_some_iff.mpr ⟨searchViewController, hreload, rfl⟩
  | didSelectCity item page =>
    have htile : (redactTabs s.2).searchViewController = s.2.searchViewController := rfl
    cases Screens.step_cases h with
    | noCity hitem =>
      simp only [redactTabsEvent, Screens.step, Screens.Tabs.didSelectCity, htile, hitem,
        Option.map_some]
    | openCity hitem hfresh hrefs =>
      have hfresh' : (redactTabs s.2).cityLoads page = none := hfresh
      have hopen := @CityPage.getSpots_of_refs (CityPage.vc _) (redactTabs s.2).device.hud
        (redactTabs s.2).device.currentUser _ hrefs
      simp only [redactTabsEvent, Screens.step, Screens.Tabs.didSelectCity, htile, hitem, hfresh',
        Option.isSome_none, Bool.false_eq_true, if_false, hopen, Option.map_some]
      rfl
  | didSelectSpot owner item =>
    obtain ⟨spot, hspot, rfl⟩ := Option.map_eq_some_iff.mp h
    exact Option.map_eq_some_iff.mpr ⟨spot, hspot, rfl⟩
  | openFavorites page =>
    cases Screens.step_cases h with | openFavorites hfresh =>
    have hfresh' : (redactTabs s.2).favoritesLoads page = none := hfresh
    simp only [redactTabsEvent, Screens.step, Screens.Tabs.openFavorites, hfresh',
      Option.isSome_none, Bool.false_eq_true, if_false, Option.map_some]
    rfl
  | city page e =>
    obtain ⟨loading, hloading, h⟩ := Option.bind_eq_some_iff.mp h
    obtain ⟨r, hr, rfl⟩ := Option.map_eq_some_iff.mp h
    refine Option.bind_eq_some_iff.mpr ⟨loading, hloading, Option.map_eq_some_iff.mpr ⟨r, ?_, rfl⟩⟩
    rw [cityStep_redactDb, hr]
  | favorites page e =>
    obtain ⟨loading, hloading, h⟩ := Option.bind_eq_some_iff.mp h
    obtain ⟨r, hr, rfl⟩ := Option.map_eq_some_iff.mp h
    refine Option.bind_eq_some_iff.mpr ⟨loading, hloading, Option.map_eq_some_iff.mpr ⟨r, ?_, rfl⟩⟩
    rw [favoritesStep_redactDb, hr]
  | device e =>
    obtain ⟨⟨db, d⟩, hr, rfl⟩ := Option.map_eq_some_iff.mp h
    exact Option.map_eq_some_iff.mpr ⟨_, step_redactTapping hr, rfl⟩

/-! The profile page reads the name, the address, the flag and the picture. -/

def redactSetup (setup : Profile.Setup) : Profile.Setup :=
  { setup with
    stage := match setup.stage with
      | .didGetDocument reply => .didGetDocument (redactReply reply)
      | stage => stage }

def redactSession (s : Profile.Session) : Profile.Session :=
  { s with setups := s.setups.map redactSetup }

theorem didGetDocument_redactSession (s : Profile.Session) (reply : Reply) :
    Profile.didGetDocument (redactSession s) (redactReply reply) =
      (redactSession (Profile.didGetDocument s reply).1, (Profile.didGetDocument s reply).2) := by
  rcases reply with _ | _ | data
  · rfl
  · rfl
  · have hfill : Profile.fillIn s.user (redact data) = Profile.fillIn s.user data := by
      simp only [Profile.fillIn, string_redact data (show "name" ≠ "password" by decide),
        string_redact data (show "email" ≠ "password" by decide),
        bool_redact data (show "isAdmin" ≠ "password" by decide)]
    have huser : (redactSession s).user = s.user := rfl
    simp only [redactReply, Option.map_some, Profile.didGetDocument, huser, hfill,
      string_redact data (show "profileImageURL" ≠ "password" by decide)]
    cases data.string "profileImageURL" <;> rfl

theorem setStage_redactSession (s : Profile.Session) (i : ℕ) (stage : Profile.Stage) :
    redactSession (s.setStage i stage) =
      (redactSession s).setStage i (redactSetup ⟨"", stage⟩).stage := by
  have hsetups := @map_modify _ _ redactSetup (fun setup => { setup with stage })
    (fun setup => { setup with stage := (redactSetup ⟨"", stage⟩).stage }) (fun _ => rfl) s.setups i
  simp only [redactSession, Profile.Session.setStage, hsetups]

theorem setupData_redactSession (s : Profile.Session) :
    redactSession (Profile.setupData s) = Profile.setupData (redactSession s) := by
  have huser : (redactSession s).currentUser = s.currentUser := rfl
  simp only [Profile.setupData, huser]
  cases s.currentUser with
  | none => rfl
  | some uid => simp [redactSession, redactSetup]

theorem step_redactSession {s t : Firestore × Profile.Session} {e : Profile.Event}
    (he : ofProfile e = true) (h : Profile.step s e = some t) :
    Profile.step (redactDb s.1, redactSession s.2) e = some (redactDb t.1, redactSession t.2) := by
  have hget : ∀ {i : ℕ} {setup : Profile.Setup}, s.2.setups[i]? = some setup →
      (redactSession s.2).setups[i]? = some (redactSetup setup) := by
    intro i setup hsetup
    simp [redactSession, hsetup]
  cases e with
  | setupData =>
    obtain rfl := Option.some.inj h
    simp only [Profile.step, setupData_redactSession]
  | signOut ok =>
    obtain rfl := Option.some.inj h
    cases ok <;> rfl
  | signIn | write => cases he
  | getDocument i ok =>
    cases Profile.step_cases h with | getDocument hsetup hstage =>
    simp only [Profile.step, hget hsetup, Option.bind_some, redactSetup, hstage,
      getDocument_redactDb, setStage_redactSession]
  | didGetDocument i =>
    cases Profile.step_cases h with | @didGetDocument _ setup reply hsetup hstage =>
    simp only [Profile.step, hget hsetup, Option.bind_some, redactSetup, hstage,
      didGetDocument_redactSession, setStage_redactSession]
    rcases reply with _ | _ | data
    · rfl
    · rfl
    · simp only [Profile.didGetDocument]
      cases data.string "profileImageURL" <;> rfl
  | didSetImage i =>
    cases Profile.step_cases h with | didSetImage hsetup hstage =>
    simp only [Profile.step, hget hsetup, Option.bind_some, redactSetup, hstage,
      setStage_redactSession]
    rfl

/-! The registration hands the password on to the document of the new account. -/

def redactUser (user : User) : User := { user with password := "" }

def redactAttempt (a : Registration.Attempt) : Registration.Attempt :=
  { a with
    stage := match a.stage with
      | .setData uid userDict => .setData uid (redact userDict)
      | stage => stage }

def redactFlow (s : Registration.Flow) : Registration.Flow :=
  { s with
    stepThrees := s.stepThrees.map redactUser
    attempts := s.attempts.map redactAttempt }

theorem setStage_redactFlow (s : Registration.Flow) (i : ℕ) (stage : Registration.Stage) :
    redactFlow (s.setStage i stage) =
      (redactFlow s).setStage i (redactAttempt ⟨0, "", none, stage⟩).stage := by
  have hattempts := @map_modify _ _ redactAttempt (fun a => { a with stage })
    (fun a => { a with stage := (redactAttempt ⟨0, "", none, stage⟩).stage }) (fun _ => rfl)
    s.attempts i
  simp only [redactFlow, Registration.Flow.setStage, hattempts]

theorem available_redactFlow (db : Firestore) (s : Registration.Flow) (email uid : String) :
    Registration.Available (redactDb db) (redactFlow s) email uid ↔
      Registration.Available db s email uid := by
  simp [Registration.Available, redactFlow, lookup_redactDb]

theorem didCreateUser_redactFlow (s : Registration.Flow) (a : Registration.Attempt) (ok : Bool) :
    Registration.didCreateUser (redactFlow s) (redactAttempt a) ok =
      (redactFlow (Registration.didCreateUser s a ok).1,
        (redactAttempt ⟨0, "", none, (Registration.didCreateUser s a ok).2⟩).stage) := by
  cases ok with
  | false => rfl
  | true =>
    have huser : (redactFlow s).currentUser = s.currentUser := rfl
    have hstep : (redactFlow s).stepThrees[(redactAttempt a).stepThree]? =
        s.stepThrees[a.stepThree]?.map redactUser := by simp [redactFlow, redactAttempt]
    simp only [Registration.didCreateUser, if_true, huser, hstep]
    cases s.currentUser with
    | none => rfl
    | some uid => cases s.stepThrees[a.stepThree]? <;> rfl

theorem step_redactFlow {s t : Firestore × Registration.Flow} {e : Registration.Event}
    (h : Registration.step s e = some t) :
    Registration.step (redactDb s.1, redactFlow s.2) e = some (redactDb t.1, redactFlow t.2) := by
  have hget : ∀ {i : ℕ} {a : Registration.Attempt}, s.2.attempts[i]? = some a →
      (redactFlow s.2).attempts[i]? = some (redactAttempt a) := by
    intro i a ha
    simp [redactFlow, ha]
  cases e with
  | finishButtonDidTap j name =>
    cases Registration.step_cases h with | @finishButtonDidTap _ _ user huser =>
    have huser' : (redactFlow s.2).stepThrees[j]? = some (redactUser user) := by
      simp [redactFlow, huser]
    have hnamed := @map_modify _ _ redactUser (fun user => { user with name })
      (fun user => { user with name }) (fun _ => rfl) s.2.stepThrees j
    simp only [Registration.step, Registration.finishButtonDidTap, huser', Option.map_some]
    simp [redactFlow, redactAttempt, redactUser, hnamed]
  | createUser i uid =>
    cases Registration.step_cases h with
    | created ha hstage huid =>
      rename_i uid a
      have huid' : Registration.Available (redactDb s.1) (redactFlow s.2) (redactAttempt a).email
          uid := (available_redactFlow ..).mpr huid
      have hstage' : (redactAttempt a).stage = .createUser := by simp [redactAttempt, hstage]
      have hcreate := @map_modify _ _ redactAttempt
        (fun a => { a with created := some uid, stage := .didCreateUser true })
        (fun a => { a with created := some uid, stage := .didCreateUser true }) (fun _ => rfl)
        s.2.attempts i
      simp only [Registration.step, hget ha, Option.bind_some, Registration.advance, hstage',
        if_pos huid']
      simp only [Registration.create, redactFlow, hcreate, redactAttempt]
    | refused ha hstage =>
      simp only [Registration.step, hget ha, Option.bind_some, Registration.advance, redactAttempt,
        hstage, setStage_redactFlow]
  | didCreateUser i =>
    cases Registration.step_cases h with | @didCreateUser _ a ok ha hstage =>
    have hstage' : (redactAttempt a).stage = .didCreateUser ok := by simp [redactAttempt, hstage]
    simp only [Registration.step, hget ha, Option.bind_some, Registration.advance, hstage',
      didCreateUser_redactFlow, setStage_redactFlow]
  | setData i ok =>
    cases Registration.step_cases h with | @setData _ a _ uid userDict ha hstage =>
    simp only [Registration.step, hget ha, Option.bind_some, Registration.advance, redactAttempt,
      hstage, setStage_redactFlow]
    cases ok with
    | false => rfl
    | true => simp [insert_redactDb]
  | didSetData i =>
    cases Registration.step_cases h with | didSetData ha hstage =>
    simp only [Registration.step, hget ha, Option.bind_some, Registration.advance, redactAttempt,
      hstage, setStage_redactFlow]
    rfl

/-! The whole client. -/

def redactUpload (upload : Upload) : Upload :=
  { upload with
    stage := match upload.stage with
      | .updateData dictionary => .updateData (redact dictionary)
      | stage => stage }

def redactLogin (login : Login) : Login := { login with password := "" }

def redactWrite : Write → Write
  | .setData ref data => .setData ref (redactAt ref data)
  | .updateData ref data => .updateData ref data

def redactApp (s : App) : App :=
  { s with
    tabs := redactTabs s.tabs
    profile := redactSession s.profile
    registration := redactFlow s.registration
    logins := s.logins.map (Option.map redactLogin)
    uploads := s.uploads.map redactUpload
    writes := s.writes.map redactWrite }

def redactState (s : Firestore × App) : Firestore × App := (redactDb s.1, redactApp s.2)

def redactEvent : Event → Event
  | .tabs e => .tabs (redactTabsEvent e)
  | e => e

/-- A password is typed. -/
def Event.isTyped : Event → Bool
  | .stepTwo _ _ | .loginButtonDidTap _ _ _ => true
  | _ => false

theorem log_redactApp (s : App) (writes : List Write) :
    redactApp (s.log writes) = (redactApp s).log (writes.map redactWrite) := by
  simp [redactApp, App.log]

theorem setUpload_redactApp (s : App) (i : ℕ) (stage : UploadStage) :
    redactApp (s.setUpload i stage) =
      (redactApp s).setUpload i (redactUpload ⟨"", stage⟩).stage := by
  have huploads := @map_modify _ _ redactUpload (fun upload => { upload with stage })
    (fun upload => { upload with stage := (redactUpload ⟨"", stage⟩).stage }) (fun _ => rfl)
    s.uploads i
  simp only [redactApp, App.setUpload, huploads]

theorem issuedByTap_redactTap (tap : FavoriteButton.Tap) :
    issuedByTap (redactTap tap) = (issuedByTap tap).map redactWrite := by
  obtain ⟨c, uid, spotID, adding, stage⟩ := tap
  cases stage <;> rfl

theorem issuedByAttempt_redactAttempt (a : Registration.Attempt) :
    issuedByAttempt (redactAttempt a) = (issuedByAttempt a).map redactWrite := by
  obtain ⟨stepThree, email, created, stage⟩ := a
  cases stage <;> rfl

theorem issuedByTabs_redactTabs (tabs : Screens.Tabs) (e : Screens.Event) :
    issuedByTabs (redactTabs tabs) (redactTabsEvent e) =
      (issuedByTabs tabs e).map redactWrite := by
  cases e with
  | device e =>
    cases e with
    | didGetDocument i =>
      simp only [issuedByTabs, redactTabsEvent, redactTabs, redactDevice, List.getElem?_map,
        Option.map_map]
      cases tabs.device.taps[i]? with
      | none => rfl
      | some tap => exact issuedByTap_redactTap tap
    | cellForItemAt | favoriteButtonDidTap | getDocument | updateData | didUpdateData |
      reloadData => rfl
  | signOut | signIn | write | didGetDocuments | reloadData | didSelectCity | didSelectSpot |
    openFavorites | city | favorites => rfl

theorem issuedByRegistration_redactFlow (flow : Registration.Flow) (e : Registration.Event) :
    issuedByRegistration (redactFlow flow) e = (issuedByRegistration flow e).map redactWrite := by
  cases e with
  | didCreateUser i =>
    simp only [issuedByRegistration, redactFlow, List.getElem?_map, Option.map_map]
    cases flow.attempts[i]? with
    | none => rfl
    | some a => exact issuedByAttempt_redactAttempt a
  | finishButtonDidTap | createUser | setData | didSetData => rfl

theorem didSignIn_redactApp (s : App) (login : Login) (uid : String) :
    redactApp (s.didSignIn login uid) = (redactApp s).didSignIn (redactLogin login) uid := by
  have hsignIn : redactSession (Profile.signIn s.session uid login.knowsProfile) =
      Profile.signIn (redactApp s).session uid login.knowsProfile := by
    unfold Profile.signIn
    cases login.knowsProfile with
    | false => rfl
    | true => exact setupData_redactSession _
  have hset : redactApp (s.setSession (Profile.signIn s.session uid login.knowsProfile)) =
      (redactApp s).setSession
        (redactSession (Profile.signIn s.session uid login.knowsProfile)) := rfl
  simp only [App.didSignIn, hset, hsignIn]
  rfl

theorem advance_redactState {s t : Firestore × App} {upload : Upload} {i : ℕ} {e : Event}
    (h : advance s upload i e = some t) :
    advance (redactState s) (redactUpload upload) i e = some (redactState t) := by
  obtain ⟨uid, stage⟩ := upload
  cases e with
  | didPutData j ok =>
    cases stage with
    | putData =>
      obtain rfl := Option.some.inj h
      cases ok <;> simp only [advance, redactUpload, redactState, setUpload_redactApp] <;> rfl
    | downloadURL | updateData | finished => cases h
  | didDownloadURL j url =>
    cases stage with
    | downloadURL =>
      cases url with
      | some url =>
        obtain rfl := Option.some.inj h
        simp only [advance, redactUpload, redactState, log_redactApp, setUpload_redactApp]
        rfl
      | none =>
        obtain rfl := Option.some.inj h
        simp only [advance, redactUpload, redactState, setUpload_redactApp]
    | putData | updateData | finished => cases url <;> cases h
  | updateData j ok =>
    cases stage with
    | updateData dictionary =>
      obtain rfl := Option.some.inj h
      simp only [advance, redactUpload, redactState, setUpload_redactApp]
      cases ok with
      | false => rfl
      | true =>
        simp only [if_true, updateData_redactDb]
        cases s.1.updateData (userRef uid) dictionary <;> rfl
    | putData | downloadURL | finished => cases h
  | stepOne | stepTwo | registration | loginButtonDidTap | didSignIn | profile |
    didFinishPickingMedia | tabs => cases h

theorem getElem?_redactUpload {s : App} {i : ℕ} {upload : Upload}
    (h : s.uploads[i]? = some upload) :
    (redactApp s).uploads[i]? = some (redactUpload upload) := by
  simp [redactApp, h]

theorem step_redactState {count : String → ℕ} {s t : Firestore × App} {e : Event}
    (he : e.isTyped = false) (h : step count s e = some t) :
    step count (redactState s) (redactEvent e) = some (redactState t) := by
  cases e with
  | stepTwo | loginButtonDidTap => cases he
  | stepOne email =>
    simp only [step] at h
    split_ifs at h with hemail
    · obtain rfl := Option.some.inj h
      simp only [redactEvent, step, hemail, if_true]
      rfl
    · obtain rfl := Option.some.inj h
      simp [redactEvent, step, hemail]
  | registration e =>
    obtain ⟨r, hr, rfl⟩ := Option.map_eq_some_iff.mp h
    refine Option.map_eq_some_iff.mpr ⟨_, step_redactFlow hr, ?_⟩
    simp only [redactState, log_redactApp, issuedByRegistration_redactFlow]
    rfl
  | didSignIn i uid =>
    obtain ⟨login, hlogin, rfl⟩ := Option.map_eq_some_iff.mp h
    have hlogin' : (redactApp s.2).logins[i]?.join = some (redactLogin login) := by
      simp only [redactApp, List.getElem?_map]
      cases hi : s.2.logins[i]? with
      | none => simp [hi] at hlogin
      | some found =>
        obtain rfl : found = some login := by simpa [hi] using hlogin
        rfl
    have hset : (redactApp s.2).logins.set i none =
        (s.2.logins.set i none).map (Option.map redactLogin) := by simp [redactApp, List.map_set]
    refine Option.map_eq_some_iff.mpr ⟨_, hlogin', ?_⟩
    simp only [redactState, hset]
    cases uid with
    | none => rfl
    | some uid => simp only [didSignIn_redactApp]; rfl
  | profile e =>
    simp only [step] at h
    split_ifs at h with hprofile
    obtain ⟨r, hr, rfl⟩ := Option.map_eq_some_iff.mp h
    simp only [redactEvent, step, hprofile, if_true]
    exact Option.map_eq_some_iff.mpr ⟨_, step_redactSession hprofile hr, rfl⟩
  | didFinishPickingMedia hasData =>
    obtain rfl := Option.some.inj h
    have huser : (redactApp s.2).tabs.device.currentUser = s.2.tabs.device.currentUser := rfl
    simp only [redactEvent, step, App.saveToStorage, redactState, huser]
    cases s.2.tabs.device.currentUser with
    | none => rfl
    | some uid => cases hasData <;> simp [redactApp, redactUpload]
  | didPutData | didDownloadURL | updateData =>
    obtain ⟨upload, hupload, h⟩ := Option.bind_eq_some_iff.mp h
    exact Option.bind_eq_some_iff.mpr
      ⟨_, getElem?_redactUpload hupload, advance_redactState h⟩
  | tabs e =>
    simp only [step] at h
    split_ifs at h with htabs
    obtain ⟨r, hr, rfl⟩ := Option.map_eq_some_iff.mp h
    have htabs' : ofTabs (redactTabsEvent e) = true := by
      cases e <;> exact htabs
    simp only [redactEvent, step, htabs', if_true]
    refine Option.map_eq_some_iff.mpr ⟨_, step_redactTabs hr, ?_⟩
    simp only [redactState, log_redactApp, ← issuedByTabs_redactTabs]
    rfl

/-- The events differ in the typed password at most. -/
inductive Retyped : Event → Event → Prop where
  | stepTwo (screen : ℕ) (password password' : String) :
      Retyped (.stepTwo screen password) (.stepTwo screen password')
  | loginButtonDidTap (email password password' : String) (knowsProfile : Bool) :
      Retyped (.loginButtonDidTap email password knowsProfile)
        (.loginButtonDidTap email password' knowsProfile)
  | same {e : Event} (he : e.isTyped = false) : Retyped e e

/-- The screen accepts the typed password. A login screen accepts any. -/
def Event.Accepted (count : String → ℕ) : Event → Prop
  | .stepTwo _ password => 6 ≤ count password
  | _ => True

theorem stepTwo_accepted {count : String → ℕ} {s t : Firestore × App} {j : ℕ} {password : String}
    (ha : 6 ≤ count password) (h : step count s (.stepTwo j password) = some t) :
    ∃ email, s.2.stepTwos[j]? = some email ∧ redactState t =
      (redactDb s.1, (redactApp s.2).openStepThree email "") := by
  obtain ⟨email, hemail, rfl⟩ := Option.map_eq_some_iff.mp h
  refine ⟨email, hemail, ?_⟩
  simp [ha, redactState, redactApp, App.openStepThree, redactFlow, redactUser, User.init]

/-- One event keeps the states the same up to passwords. -/
theorem step_retyped {count : String → ℕ} {s₁ s₂ t₁ t₂ : Firestore × App} {e₁ e₂ : Event}
    (hs : redactState s₁ = redactState s₂) (he : Retyped e₁ e₂) (ha₁ : e₁.Accepted count)
    (ha₂ : e₂.Accepted count) (h₁ : step count s₁ e₁ = some t₁) (h₂ : step count s₂ e₂ = some t₂) :
    redactState t₁ = redactState t₂ := by
  have hdb : redactDb s₁.1 = redactDb s₂.1 := congrArg Prod.fst hs
  have happ : redactApp s₁.2 = redactApp s₂.2 := congrArg Prod.snd hs
  cases he with
  | same htyped =>
    have ht₁ := step_redactState htyped h₁
    rw [hs, step_redactState htyped h₂] at ht₁
    exact (Option.some.inj ht₁).symm
  | stepTwo screen password password' =>
    obtain ⟨email₁, hemail₁, ht₁⟩ := stepTwo_accepted ha₁ h₁
    obtain ⟨email₂, hemail₂, ht₂⟩ := stepTwo_accepted ha₂ h₂
    have hscreens : s₁.2.stepTwos = s₂.2.stepTwos := (congrArg App.stepTwos happ :)
    obtain rfl : email₁ = email₂ :=
      Option.some.inj (hemail₁.symm.trans ((congrArg (·[screen]?) hscreens).trans hemail₂))
    rw [ht₁, ht₂, hdb, happ]
  | loginButtonDidTap email password password' knowsProfile =>
    obtain rfl := Option.some.inj h₁
    obtain rfl := Option.some.inj h₂
    have hlogin : ∀ (s : App) (typed : String),
        redactApp { s with logins := s.logins ++ [some ⟨email, typed, knowsProfile⟩] } =
          { redactApp s with
            logins := (redactApp s).logins ++ [some ⟨email, "", knowsProfile⟩] } := by
      intro s typed
      simp [redactApp, redactLogin]
    simp only [redactState, hlogin, hdb, happ]

theorem run_retyped {count : String → ℕ} {s₁ s₂ t₁ t₂ : Firestore × App} {es₁ es₂ : List Event}
    (hs : redactState s₁ = redactState s₂) (hes : List.Forall₂ Retyped es₁ es₂)
    (ha₁ : ∀ e ∈ es₁, e.Accepted count) (ha₂ : ∀ e ∈ es₂, e.Accepted count)
    (hr₁ : run (step count) s₁ es₁ = some t₁) (hr₂ : run (step count) s₂ es₂ = some t₂) :
    redactState t₁ = redactState t₂ := by
  induction hes generalizing s₁ s₂ with
  | nil =>
    obtain rfl := Option.some.inj hr₁
    obtain rfl := Option.some.inj hr₂
    exact hs
  | cons he hes ih =>
    obtain ⟨m₁, hm₁, hr₁⟩ := run_cons.mp hr₁
    obtain ⟨m₂, hm₂, hr₂⟩ := run_cons.mp hr₂
    exact ih (step_retyped hs he (ha₁ _ (by simp)) (ha₂ _ (by simp)) hm₁ hm₂)
      (fun e he => ha₁ e (by simp [he])) (fun e he => ha₂ e (by simp [he])) hr₁ hr₂

/-- Two runs that differ in accepted passwords issue the same writes, up to the value of the
field `password` in the documents that registrations create. -/
theorem writes_same_but_password {count : String → ℕ} {s t₁ t₂ : Firestore × App}
    {es₁ es₂ : List Event} (hes : List.Forall₂ Retyped es₁ es₂)
    (ha₁ : ∀ e ∈ es₁, e.Accepted count) (ha₂ : ∀ e ∈ es₂, e.Accepted count)
    (hr₁ : run (step count) s es₁ = some t₁) (hr₂ : run (step count) s es₂ = some t₂) :
    t₁.2.writes.map redactWrite = t₂.2.writes.map redactWrite := by
  have hstates := run_retyped rfl hes ha₁ ha₂ hr₁ hr₂
  exact (congrArg (fun s => s.2.writes) hstates :)

/-- A registration with the given password. -/
def sampleRegistration (password : String) : List Event :=
  [.stepOne "a@b.tw", .stepTwo 0 password, .registration (.finishButtonDidTap 0 "a"),
    .registration (.createUser 0 (some "u")), .registration (.didCreateUser 0),
    .registration (.setData 0 true), .registration (.didSetData 0)]

theorem retyped_sampleRegistration (password password' : String) :
    List.Forall₂ Retyped (sampleRegistration password) (sampleRegistration password') :=
  .cons (.same rfl) (.cons (.stepTwo 0 password password') (.cons (.same rfl) (.cons (.same rfl)
    (.cons (.same rfl) (.cons (.same rfl) (.cons (.same rfl) .nil))))))

theorem accepted_sampleRegistration {count : String → ℕ} {password : String}
    (h : 6 ≤ count password) : ∀ e ∈ sampleRegistration password, e.Accepted count := by
  simp [sampleRegistration, Event.Accepted, h]

/-- Where the registration ends. -/
def sampleRegistered (password : String) : Firestore × App :=
  (run (step String.length) (∅, launch none) (sampleRegistration password)).getD (∅, launch none)

theorem writes_same_but_password_sample :
    ∃ t₁ t₂, run (step String.length) (∅, launch none) (sampleRegistration "secret1") = some t₁ ∧
      run (step String.length) (∅, launch none) (sampleRegistration "secret2") = some t₂ ∧
      t₁.2.writes.map redactWrite = t₂.2.writes.map redactWrite ∧ t₁.2.writes.length = 1 :=
  ⟨sampleRegistered "secret1", sampleRegistered "secret2", rfl, rfl,
    @writes_same_but_password String.length (∅, launch none) _ _ _ _
      (retyped_sampleRegistration "secret1" "secret2")
      (accepted_sampleRegistration (by decide)) (accepted_sampleRegistration (by decide)) rfl rfl,
    rfl⟩

/-- The password that a write hands on. -/
def Write.password : Write → Option String
  | .setData _ data => data.string "password"
  | .updateData _ data => data.string "password"

/-- The document of a new account holds the password. -/
theorem registration_writes_password :
    ∃ es₁ es₂ t₁ t₂, List.Forall₂ Retyped es₁ es₂ ∧
      (∀ e ∈ es₁, e.Accepted String.length) ∧ (∀ e ∈ es₂, e.Accepted String.length) ∧
      run (step String.length) (∅, launch none) es₁ = some t₁ ∧
      run (step String.length) (∅, launch none) es₂ = some t₂ ∧
      t₁.2.writes ≠ t₂.2.writes := by
  refine ⟨sampleRegistration "secret1", sampleRegistration "secret2", sampleRegistered "secret1",
    sampleRegistered "secret2", retyped_sampleRegistration _ _,
    accepted_sampleRegistration (by decide), accepted_sampleRegistration (by decide), rfl, rfl,
    fun h => ?_⟩
  have hpasswords : some "secret1" = some "secret2" :=
    (congrArg (fun writes => writes.head?.bind Write.password) h :)
  exact absurd hpasswords (by decide)

end TaiwanSpots.Client
