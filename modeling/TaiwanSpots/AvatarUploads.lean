import TaiwanSpots.IssuedWrites
import TaiwanSpots.ProfileAccount

/-!
# The pictures of the accounts

An upload belongs to the account that was signed in when its image was picked. It goes
on whoever signs in or out meanwhile, and writes the address that the storage has given
it to the document of its own account. The picture of an account is therefore never one
that was picked under another account.
-/
namespace TaiwanSpots.Client
open Runs

/-- The address of the picture of an account. -/
def picture (db : Firestore) (uid : String) : Option String :=
  (accounts db uid).bind fun d => d.string "profileImageURL"

/-- The documents that registrations are to write describe their users. -/
def Drafted (s : App) : Prop :=
  ∀ a ∈ s.registration.attempts, ∀ uid d, a.stage = .setData uid d → ∃ user : User,
    d = user.dictionary

theorem string_profileImageURL_dictionary (user : User) :
    user.dictionary.string "profileImageURL" = none := rfl

theorem picture_insert (db : Firestore) (uid uid' : String) (d : Dictionary) :
    picture (db.insert (userRef uid) d) uid' =
      if uid' = uid then d.string "profileImageURL" else picture db uid' := by
  simp only [picture, accounts_insert_user]
  split_ifs <;> rfl

theorem picture_updateData_image (db : Firestore) (uid url uid' : String) :
    picture ((db.updateData (userRef uid) (profileImageData url)).getD db) uid' = picture db uid' ∨
    uid' = uid ∧
      picture ((db.updateData (userRef uid) (profileImageData url)).getD db) uid' = some url := by
  simp only [picture, accounts_updateData_user]
  split_ifs with hu
  · subst hu
    cases accounts db uid' with
    | none => exact .inl rfl
    | some old => exact .inr ⟨rfl, by simp [Dictionary.string, Dictionary.lookup_merge,
        profileImageData, Any.asString]⟩
  · exact .inl rfl

section
variable {characters : String → ℕ} {s t : Firestore × App} {e : Event}

/-- What an event of the app does to its uploads. -/
inductive Uploads (s : App) (e : Event) : List Upload → Prop where
  | same : Uploads s e s.uploads
  | started {uid : String} (he : e = .didFinishPickingMedia true)
      (huser : s.currentUser = some uid) : Uploads s e (s.uploads ++ [⟨uid, .putData⟩])
  | moved {i : ℕ} {stage : UploadStage}
      (hstage : ∀ d, stage = .updateData d → ∃ url, e = .didDownloadURL i (some url) ∧
        d = profileImageData url) :
      Uploads s e (s.uploads.modify i fun upload => { upload with stage })

theorem uploads_cases (h : step characters s e = some t) : Uploads s.2 e t.2.uploads := by
  cases step_cases h with
  | invalidEmail | stepOne | shortPassword | stepTwo | registration | loginButtonDidTap
  | notSignedIn | didSignIn | profile | nothingPicked | tabs => exact .same
  | didFinishPickingMedia huser => exact .started rfl huser
  | didPutData => exact .moved (by split_ifs <;> simp)
  | didDownloadURL | noURL | updateData => exact .moved (by simp)

/-- What holds of every upload still does, if it holds of a new one and when one moves on. -/
theorem Uploads.forall_mem {P : Upload → Prop} {s : App} {uploads : List Upload}
    (h : Uploads s e uploads) (hs : ∀ upload ∈ s.uploads, P upload)
    (hstarted : ∀ uid, s.currentUser = some uid → P ⟨uid, .putData⟩)
    (hmoved : ∀ upload stage, P upload →
      (∀ d, stage = .updateData d → ∃ url, d = profileImageData url) → P { upload with stage }) :
    ∀ upload ∈ uploads, P upload := by
  cases h with
  | same => exact hs
  | started he huser => exact forall_mem_concat hs (hstarted _ huser)
  | moved hstage =>
    refine forall_mem_modify hs fun upload hupload =>
      hmoved _ _ (hs upload (List.mem_of_getElem? hupload)) fun d hd => ?_
    obtain ⟨url, -, rfl⟩ := hstage d hd
    exact ⟨url, rfl⟩

/-- A document that a registration is to write is for the account that is signed in. -/
theorem registration_drafted {used : String → Prop} {s t : Firestore × Registration.Flow}
    {e : Registration.Event}
    (hs : ∀ a ∈ s.2.attempts, ∀ uid d, a.stage = .setData uid d → used uid ∧ ∃ user : User,
      d = user.dictionary)
    (huser : ∀ uid, s.2.currentUser = some uid → used uid) (h : Registration.Step s e t) :
    ∀ a ∈ t.2.attempts, ∀ uid d, a.stage = .setData uid d → used uid ∧ ∃ user : User,
      d = user.dictionary := by
  cases h with
  | finishButtonDidTap huser => exact forall_mem_concat hs (by simp)
  | created ha hstage huid => exact forall_mem_modify hs (by simp)
  | refused ha hstage => exact forall_mem_modify hs (by simp)
  | @didCreateUser i a ok ha hstage =>
    simp only [Registration.Flow.setStage, didCreateUser_attempts]
    refine forall_mem_modify hs fun _ _ uid d hdraft => ?_
    simp only [Registration.didCreateUser] at hdraft
    split_ifs at hdraft
    · split at hdraft
      · rename_i uid' user hsigned _
        cases hdraft
        exact ⟨huser _ hsigned, user, rfl⟩
      · cases hdraft
  | setData ha hstage => exact forall_mem_modify hs (by simp)
  | didSetData ha hstage => exact forall_mem_modify hs (by simp [Registration.didSetData])

theorem step_drafted (hs : Drafted s.2) (h : step characters s e = some t) : Drafted t.2 := by
  cases step_cases h with
  | registration hstep =>
    have hnext := registration_drafted
      (fun a ha uid d hstage => ⟨trivial, hs a ha uid d hstage⟩) (fun _ _ => trivial) hstep
    exact fun a ha uid d hstage => (hnext a ha uid d hstage).2
  | invalidEmail | stepOne | shortPassword | stepTwo | loginButtonDidTap | notSignedIn
  | didSignIn | profile | nothingPicked | didFinishPickingMedia | didPutData | didDownloadURL
  | noURL | updateData | tabs => exact hs

/-- What is carried out was issued for a tap, a registration or an upload. -/
theorem carried_cases {s : App} {w : Write} (h : carried s e = some w) :
    (∃ tap ∈ s.tabs.device.taps, ∃ ids,
      w = .updateData (userRef tap.uid) (FavoriteButton.favoriteData ids)) ∨
    (∃ a ∈ s.registration.attempts, ∃ uid d, a.stage = .setData uid d ∧
      w = .setData (userRef uid) d) ∨
    ∃ (i : ℕ) (upload : Upload) (d : Dictionary), s.uploads[i]? = some upload ∧
      upload.stage = .updateData d ∧ w = .updateData (userRef upload.uid) d := by
  unfold carried at h
  split at h
  · obtain ⟨tap, htap, h⟩ := Option.bind_eq_some_iff.mp h
    unfold issuedByTap at h
    split at h
    · exact .inl ⟨tap, List.mem_of_getElem? htap, _, (Option.some.inj h).symm⟩
    · cases h
  · obtain ⟨a, ha, h⟩ := Option.bind_eq_some_iff.mp h
    unfold issuedByAttempt at h
    split at h
    · exact .inr (.inl ⟨a, List.mem_of_getElem? ha, _, _, ‹_›, (Option.some.inj h).symm⟩)
    · cases h
  · obtain ⟨upload, hupload, h⟩ := Option.bind_eq_some_iff.mp h
    unfold issuedByUpload at h
    split at h
    · exact .inr (.inr ⟨_, upload, _, hupload, ‹_›, (Option.some.inj h).symm⟩)
    · cases h
  · cases h

/-- An account has a new picture only through the write of an upload of its own. -/
theorem picture_step (he : ofApp e = true) (hs : Drafted s.2)
    (hdata : ∀ (i : ℕ) (upload : Upload) (d : Dictionary), s.2.uploads[i]? = some upload →
      upload.stage = .updateData d → ∃ url, d = profileImageData url)
    (h : step characters s e = some t) {uid url : String} (hpicture : picture t.1 uid = some url) :
    picture s.1 uid = some url ∨ ∃ (i : ℕ) (upload : Upload), s.2.uploads[i]? = some upload ∧
      upload.uid = uid ∧ upload.stage = .updateData (profileImageData url) := by
  obtain ⟨hdb, -⟩ := step_covered he h
  cases hcarried : carried s.2 e with
  | none =>
    rw [hdb, hcarried] at hpicture
    exact .inl hpicture
  | some w =>
    rw [hdb, hcarried, Option.elim_some] at hpicture
    rcases carried_cases hcarried with ⟨tap, -, ids, rfl⟩ | ⟨a, ha, uid', d, hstage, rfl⟩ |
        ⟨i, upload, d, hupload, hstage, rfl⟩
    · have hsame : picture ((Write.updateData (userRef tap.uid)
          (FavoriteButton.favoriteData ids)).perform s.1) uid = picture s.1 uid :=
        field_updateData (by cases ids <;> rfl) Any.asString tap.uid uid
      exact .inl (hsame ▸ hpicture)
    · obtain ⟨user, rfl⟩ := hs a ha uid' d hstage
      rw [Write.perform, picture_insert] at hpicture
      split_ifs at hpicture
      · rw [string_profileImageURL_dictionary] at hpicture
        cases hpicture
      · exact .inl hpicture
    · obtain ⟨url', rfl⟩ := hdata i upload d hupload hstage
      rw [Write.perform] at hpicture
      rcases picture_updateData_image s.1 upload.uid url' uid with hsame | ⟨rfl, hnew⟩
      · exact .inl (hsame ▸ hpicture)
      · obtain rfl : url' = url := Option.some.inj (hnew.symm.trans hpicture)
        exact .inr ⟨i, upload, hupload, rfl, hstage⟩

end

section
variable {ι κ : Type*} [DecidableEq ι] [DecidableEq κ]

/-- The app has started its upload number `i` under the account. -/
def Started (o : ι → Outcomes) (characters : String → ℕ) (s : Groups Firestore ι Rebuild κ App)
    (es : List ((ι × TaiwanSpots.Event) ⊕ (κ × Event))) (k : κ) (i : ℕ) (uid : String) : Prop :=
  ∃ pre post m, es = pre ++ .inr (k, .didFinishPickingMedia true) :: post ∧
    run (system o characters) s pre = some m ∧ (m.second k).currentUser = some uid ∧
      (m.second k).uploads.length = i

variable {o : ι → Outcomes} {characters : String → ℕ} {user : ι → User} {count : ι → ℤ}
  {s t : Groups Firestore ι Rebuild κ App} {es : List ((ι × TaiwanSpots.Event) ⊕ (κ × Event))}
  {e : (ι × TaiwanSpots.Event) ⊕ (κ × Event)} {k : κ} {i : ℕ} {uid url : String}

/-- The storage has given the address to the app's upload number `i`. -/
def Addressed (es : List ((ι × TaiwanSpots.Event) ⊕ (κ × Event))) (k : κ) (i : ℕ)
    (url : String) : Prop :=
  .inr (k, .didDownloadURL i (some url)) ∈ es

theorem Started.concat (h : Started o characters s es k i uid) :
    Started o characters s (es ++ [e]) k i uid := by
  obtain ⟨pre, post, m, rfl, hrun, huser, hlength⟩ := h
  exact ⟨pre, post ++ [e], m, by simp, hrun, huser, hlength⟩

omit [DecidableEq ι] [DecidableEq κ] in
theorem Addressed.concat (h : Addressed es k i url) : Addressed (es ++ [e]) k i url :=
  List.mem_append_left _ h

/-- The app has started the upload under its account, and the address that it writes is
the one that it was given. -/
def Traced (o : ι → Outcomes) (characters : String → ℕ) (s : Groups Firestore ι Rebuild κ App)
    (es : List ((ι × TaiwanSpots.Event) ⊕ (κ × Event))) (k : κ) (i : ℕ) (upload : Upload) : Prop :=
  Started o characters s es k i upload.uid ∧ ∀ d, upload.stage = .updateData d →
    ∃ url, d = profileImageData url ∧ Addressed es k i url

theorem Traced.concat {upload : Upload} (h : Traced o characters s es k i upload) :
    Traced o characters s (es ++ [e]) k i upload := by
  refine ⟨h.1.concat, fun d hd => ?_⟩
  obtain ⟨url, rfl, hurl⟩ := h.2 d hd
  exact ⟨url, rfl, hurl.concat⟩

/-- An upload keeps its account, and is given its address in this event. -/
theorem Traced.moved {upload : Upload} {stage : UploadStage} {j : ℕ} {event : Event}
    (h : Traced o characters s es k i upload)
    (hstage : ∀ d, stage = .updateData d → ∃ url, event = .didDownloadURL j (some url) ∧
      d = profileImageData url) :
    Traced o characters s (es ++ [.inr (k, event)]) k i
      (if j = i then { upload with stage } else upload) := by
  split_ifs with hj
  · subst hj
    refine ⟨h.1.concat, fun d hd => ?_⟩
    obtain ⟨url, rfl, rfl⟩ := hstage d hd
    exact ⟨url, rfl, List.mem_append_right _ (List.mem_singleton_self _)⟩
  · exact h.concat

/-- What holds of uploads and pictures after the events of a run. -/
structure Pictured (o : ι → Outcomes) (characters : String → ℕ)
    (s : Groups Firestore ι Rebuild κ App) (es : List ((ι × TaiwanSpots.Event) ⊕ (κ × Event)))
    (t : Groups Firestore ι Rebuild κ App) : Prop where
  tidy : ∀ i, (t.first i).Tidy
  drafted : ∀ k, Drafted (t.second k)
  uploads : ∀ k (i : ℕ) upload, (t.second k).uploads[i]? = some upload →
    Traced o characters s es k i upload
  pictures : ∀ uid url, picture t.store uid = some url → picture s.store uid = some url ∨
    ∃ k i, Started o characters s es k i uid ∧ Addressed es k i url

theorem Pictured.inl {m m' : Groups Firestore ι Rebuild κ App} {e : ι × TaiwanSpots.Event}
    (hm : Pictured o characters s es m) (h : system o characters m (.inl e) = some m') :
    Pictured o characters s (es ++ [.inl e]) m' := by
  obtain ⟨hinter, hsecond⟩ := beside_inl.mp h
  obtain ⟨hview, htidy⟩ := (rebuild_leavesAlone o).interleave hm.tidy hinter
  refine ⟨htidy, fun k => hsecond ▸ hm.drafted k, fun k i upload hupload => ?_,
    fun uid url hpicture => ?_⟩
  · exact (hm.uploads k i upload (hsecond ▸ hupload)).concat
  · have hsame : picture m'.store uid = picture m.store uid := by rw [picture, picture, hview]
    rcases hm.pictures uid url (hsame ▸ hpicture) with hold | ⟨k, i, hstarted, haddressed⟩
    · exact .inl hold
    · exact .inr ⟨k, i, hstarted.concat, haddressed.concat⟩

/-- The uploads of an app after one of its events. -/
theorem traced_of_uploads {m : Groups Firestore ι Rebuild κ App} {event : Event}
    {uploads : List Upload} (hrun : run (system o characters) s es = some m)
    (hm : ∀ (i : ℕ) upload, (m.second k).uploads[i]? = some upload →
      Traced o characters s es k i upload)
    (h : Uploads (m.second k) event uploads) {upload : Upload}
    (hupload : uploads[i]? = some upload) :
    Traced o characters s (es ++ [.inr (k, event)]) k i upload := by
  cases h with
  | same => exact (hm i upload hupload).concat
  | started he huser =>
    subst he
    rcases getElem?_concat_cases hupload with hold | ⟨hi, rfl⟩
    · exact (hm i upload hold).concat
    · exact ⟨⟨es, [], m, rfl, hrun, huser, hi.symm⟩, by simp⟩
  | moved hstage =>
    rw [List.getElem?_modify] at hupload
    obtain ⟨old, hold, rfl⟩ := Option.map_eq_some_iff.mp hupload
    exact (hm i old hold).moved hstage

theorem Pictured.inr {m m' : Groups Firestore ι Rebuild κ App} {event : Event}
    (hrun : run (system o characters) s es = some m) (hm : Pictured o characters s es m)
    (h : system o characters m (.inr (k, event)) = some m') :
    Pictured o characters s (es ++ [.inr (k, event)]) m' := by
  obtain ⟨hinter, hfirst⟩ := beside_inr.mp h
  obtain ⟨store, p, hstep, hm'⟩ := interleave_eq_some.mp hinter
  obtain ⟨rfl, hsecond⟩ := Shared.mk.inj hm'
  simp only [appProcess] at hstep
  split_ifs at hstep with hofApp
  have hdata : ∀ (i : ℕ) (upload : Upload) (d : Dictionary),
      (m.second k).uploads[i]? = some upload → upload.stage = .updateData d →
        ∃ url, d = profileImageData url := by
    intro i upload d hupload hd
    obtain ⟨url, hurl, -⟩ := (hm.uploads k i upload hupload).2 d hd
    exact ⟨url, hurl⟩
  refine ⟨fun i => hfirst ▸ hm.tidy i, fun k' => ?_, fun k' i upload hupload => ?_,
    fun uid url hpicture => ?_⟩
  · rw [hsecond]
    by_cases hk : k' = k
    · subst hk
      simpa using step_drafted (hm.drafted k') hstep
    · simpa [hk] using hm.drafted k'
  · rw [hsecond] at hupload
    by_cases hk : k' = k
    · subst hk
      rw [Function.update_self] at hupload
      exact traced_of_uploads hrun (hm.uploads k') (uploads_cases hstep) hupload
    · rw [Function.update_of_ne hk] at hupload
      exact (hm.uploads k' i upload hupload).concat
  · rcases picture_step hofApp (hm.drafted k) hdata hstep hpicture with hold |
        ⟨i, upload, hupload, rfl, hstage⟩
    · rcases hm.pictures uid url hold with hold | ⟨k', i, hstarted, haddressed⟩
      · exact .inl hold
      · exact .inr ⟨k', i, hstarted.concat, haddressed.concat⟩
    · obtain ⟨hstarted, haddressed⟩ := hm.uploads k i upload hupload
      obtain ⟨url', hurl, haddressed⟩ := haddressed _ hstage
      obtain rfl : url = url' := by simpa [profileImageData] using hurl
      exact .inr ⟨k, i, hstarted.concat, haddressed.concat⟩

/-- However many apps sign accounts in and out, register them, and upload pictures, beside
any rebuilds: the picture of an account is the one that it had at the start, or one whose
image was picked in an app while this account was signed in there, under the address that
the storage has given to that very upload. -/
theorem pictures_of_own_uploads {currentUser : κ → Option String}
    (hp : ∀ i, apiButtonDidTap (user i) (count i) = some (s.first i))
    (hlaunch : ∀ k, s.second k = launch (currentUser k))
    (hr : run (system o characters) s es = some t) (hpicture : picture t.store uid = some url) :
    picture s.store uid = some url ∨
      ∃ k i, Started o characters s es k i uid ∧ Addressed es k i url := by
  have hstart : Pictured o characters s [] s := by
    refine ⟨fun i => ?_, fun k => ?_, fun k i upload hupload => ?_, fun _ _ h => .inl h⟩
    · simp [start_of_didTap (hp i), Rebuild.Tidy]
    · simp [hlaunch k, Drafted, launch]
    · simp [hlaunch k, launch] at hupload
  have hpictured : Pictured o characters s es t := by
    refine invariant_of_prefix (I := Pictured o characters s) (fun pre m e m' hrun hm hstep => ?_)
      hstart hr
    cases e with
    | inl e => exact hm.inl hstep
    | inr e => exact hm.inr hrun hstep
  exact hpictured.pictures uid url hpicture

end

/-- An app in which `u` is signed in, among no rebuilds. -/
def sampleSystem : Groups Firestore Empty Rebuild Unit App :=
  ⟨AList.insert (userRef "u") (User.init "u" "" "").dictionary ∅, Empty.elim,
    fun _ => launch (some "u")⟩

/-- Another account signs in before the picture of the first one has its address. -/
def sampleLateUpload : List ((Empty × TaiwanSpots.Event) ⊕ (Unit × Event)) :=
  [.didFinishPickingMedia true, .didPutData 0 true, .profile (.signOut true),
    .loginButtonDidTap "v" "" true, .didSignIn 0 (some "v"), .didDownloadURL 0 (some "url"),
    .updateData 0 true].map fun e => .inr ((), e)

theorem pictures_of_own_uploads_sample :
    ∃ t, run (system Empty.elim String.length) sampleSystem sampleLateUpload = some t ∧
      picture t.store "u" = some "url" ∧
      ∃ k i, Started Empty.elim String.length sampleSystem sampleLateUpload k i "u" ∧
        Addressed sampleLateUpload k i "url" := by
  have h := @pictures_of_own_uploads Empty Unit _ _ Empty.elim String.length (fun _ => sampleAdmin)
    (fun _ => 1) sampleSystem _ sampleLateUpload "u" "url" (fun _ => some "u") (fun i => i.elim)
    (fun _ => rfl) rfl rfl
  exact ⟨_, rfl, rfl, h.resolve_left (by decide)⟩

end TaiwanSpots.Client
