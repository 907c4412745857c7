import TaiwanSpots.Runs
import TaiwanSpots.Pages

/-!
# The last step of a registration

A tap on the last button creates an account and then its document. The account
comes from `Auth`, which accepts an address once and signs the new account in;
the document is written under whoever is signed in when the callback runs. Every
tap is an attempt of its own, at one of its stages.
-/
namespace TaiwanSpots.Registration
open Runs

/-- An account of `Auth`. -/
structure Account where
  uid : String
  email : String
  deriving DecidableEq, Repr

/-- What an attempt waits for: the answer of `Auth`, the callback of it, the server's
answer to the write, the callback of the write. In the end it has reported success or
failure, or been dropped because nobody was signed in. -/
inductive Stage where
  | createUser
  | didCreateUser (ok : Bool)
  | setData (uid : String) (userDict : Dictionary)
  | didSetData (ok : Bool)
  | reported (ok : Bool)
  | dropped

/-- One tap. `created` records the account that it has led to; no callback reads it. -/
structure Attempt where
  stepThree : ℕ
  email : String
  created : Option String
  stage : Stage

/-- `accounts` are those of `Auth`, `stepThrees` the users of the last screens that
have been opened. -/
structure Flow where
  accounts : List Account
  currentUser : Option String
  hud : HUD
  stepThrees : List User
  attempts : List Attempt

def Stage.isOver : Stage → Bool
  | .reported _ | .dropped => true
  | _ => false

/-- No request is in flight. -/
def Flow.idle (s : Flow) : Bool := s.attempts.all fun a => a.stage.isOver

def Flow.setStage (s : Flow) (i : ℕ) (stage : Stage) : Flow :=
  { s with attempts := s.attempts.modify i fun a => { a with stage } }

/-- The user of a screen is one object, which every tap renames. -/
def finishButtonDidTap (s : Flow) (j : ℕ) (name : String) : Option Flow :=
  s.stepThrees[j]?.map fun user =>
    { s with
      hud := s.hud.showLoading
      stepThrees := s.stepThrees.modify j fun user => { user with name }
      attempts := s.attempts ++ [⟨j, user.email, none, .createUser⟩] }

/-- `Auth` creates an account for the address of attempt `i` and signs it in. -/
def create (s : Flow) (i : ℕ) (email uid : String) : Flow :=
  { s with
    accounts := s.accounts ++ [⟨uid, email⟩]
    currentUser := some uid
    attempts := s.attempts.modify i fun a =>
      { a with created := some uid, stage := .didCreateUser true } }

/-- The callback of `createUser`. -/
def didCreateUser (s : Flow) (a : Attempt) (ok : Bool) : Flow × Stage :=
  if ok then
    match s.currentUser, s.stepThrees[a.stepThree]? with
    | some uid, some user => (s, .setData uid user.dictionary)
    | _, _ => (s, .dropped)
  else ({ s with hud := s.hud.hideLoading }, .reported false)

/-- The callback of `setData` hides the indicator whether or not there is an error. -/
def didSetData (s : Flow) (ok : Bool) : Flow × Stage :=
  ({ s with hud := s.hud.hideLoading }, .reported ok)

/-- `createUser` is answered with the new account's uid, or with an error. -/
inductive Event where
  | finishButtonDidTap (stepThree : ℕ) (name : String)
  | createUser (attempt : ℕ) (uid : Option String)
  | didCreateUser (attempt : ℕ)
  | setData (attempt : ℕ) (ok : Bool)
  | didSetData (attempt : ℕ)
  deriving DecidableEq, Repr

/-- `Auth` can give the uid to a new account with this address. -/
def Available (db : Firestore) (s : Flow) (email uid : String) : Prop :=
  (∀ account ∈ s.accounts, account.email ≠ email ∧ account.uid ≠ uid) ∧
    (db.lookup (userRef uid)).isNone = true

instance (db : Firestore) (s : Flow) (email uid : String) :
    Decidable (Available db s email uid) :=
  inferInstanceAs (Decidable ((∀ account ∈ s.accounts, account.email ≠ email ∧
    account.uid ≠ uid) ∧ (db.lookup (userRef uid)).isNone = true))

/-- One event of attempt `a` at index `i`. -/
def advance (s : Firestore × Flow) (a : Attempt) (i : ℕ) :
    Event → Option (Firestore × Flow)
  | .createUser _ (some uid) =>
    match a.stage with
    | .createUser =>
      if Available s.1 s.2 a.email uid then some (s.1, create s.2 i a.email uid) else none
    | _ => none
  | .createUser _ none =>
    match a.stage with
    | .createUser => some (s.1, s.2.setStage i (.didCreateUser false))
    | _ => none
  | .didCreateUser _ =>
    match a.stage with
    | .didCreateUser ok =>
      let r := didCreateUser s.2 a ok
      some (s.1, r.1.setStage i r.2)
    | _ => none
  | .setData _ ok =>
    match a.stage with
    | .setData uid userDict =>
      some (if ok then s.1.insert (userRef uid) userDict else s.1,
        s.2.setStage i (.didSetData ok))
    | _ => none
  | .didSetData _ =>
    match a.stage with
    | .didSetData ok =>
      let r := didSetData s.2 ok
      some (s.1, r.1.setStage i r.2)
    | _ => none
  | .finishButtonDidTap _ _ => none

def step (s : Firestore × Flow) : Event → Option (Firestore × Flow)
  | .finishButtonDidTap j name => (finishButtonDidTap s.2 j name).map fun r => (s.1, r)
  | .createUser i uid => s.2.attempts[i]?.bind fun a => advance s a i (.createUser i uid)
  | .didCreateUser i => s.2.attempts[i]?.bind fun a => advance s a i (.didCreateUser i)
  | .setData i ok => s.2.attempts[i]?.bind fun a => advance s a i (.setData i ok)
  | .didSetData i => s.2.attempts[i]?.bind fun a => advance s a i (.didSetData i)

/-- Everything that one event can do. -/
inductive Step (s : Firestore × Flow) : Event → Firestore × Flow → Prop where
  | finishButtonDidTap {j : ℕ} {name : String} {user : User}
      (huser : s.2.stepThrees[j]? = some user) :
      Step s (.finishButtonDidTap j name)
        (s.1, { s.2 with
          hud := s.2.hud.showLoading
          stepThrees := s.2.stepThrees.modify j fun user => { user with name }
          attempts := s.2.attempts ++ [⟨j, user.email, none, .createUser⟩] })
  | created {i : ℕ} {uid : String} {a : Attempt} (ha : s.2.attempts[i]? = some a)
      (hstage : a.stage = .createUser) (huid : Available s.1 s.2 a.email uid) :
      Step s (.createUser i (some uid)) (s.1, create s.2 i a.email uid)
  | refused {i : ℕ} {a : Attempt} (ha : s.2.attempts[i]? = some a)
      (hstage : a.stage = .createUser) :
      Step s (.createUser i none) (s.1, s.2.setStage i (.didCreateUser false))
  | didCreateUser {i : ℕ} {a : Attempt} {ok : Bool} (ha : s.2.attempts[i]? = some a)
      (hstage : a.stage = .didCreateUser ok) :
      Step s (.didCreateUser i)
        (s.1, (didCreateUser s.2 a ok).1.setStage i (didCreateUser s.2 a ok).2)
  | setData {i : ℕ} {a : Attempt} {ok : Bool} {uid : String} {userDict : Dictionary}
      (ha : s.2.attempts[i]? = some a) (hstage : a.stage = .setData uid userDict) :
      Step s (.setData i ok)
        (if ok then s.1.insert (userRef uid) userDict else s.1,
          s.2.setStage i (.didSetData ok))
  | didSetData {i : ℕ} {a : Attempt} {ok : Bool} (ha : s.2.attempts[i]? = some a)
      (hstage : a.stage = .didSetData ok) :
      Step s (.didSetData i) (s.1, (didSetData s.2 ok).1.setStage i (didSetData s.2 ok).2)

theorem step_cases {s t : Firestore × Flow} {e : Event} (h : step s e = some t) :
    Step s e t := by
  cases e with
  | finishButtonDidTap j name =>
    simp only [step, finishButtonDidTap, Option.map_map, Option.map_eq_some_iff] at h
    obtain ⟨user, huser, rfl⟩ := h
    exact .finishButtonDidTap huser
  | createUser i uid =>
    obtain ⟨a, ha, h⟩ := Option.bind_eq_some_iff.mp h
    cases uid with
    | none =>
      simp only [advance] at h
      split at h <;> cases h
      exact .refused ha ‹_›
    | some uid =>
      simp only [advance] at h
      split at h
      · split_ifs at h with huid
        cases h
        exact .created ha ‹_› huid
      · cases h
  | didCreateUser i =>
    obtain ⟨a, ha, h⟩ := Option.bind_eq_some_iff.mp h
    simp only [advance] at h
    split at h <;> cases h
    exact .didCreateUser ha ‹_›
  | setData i ok =>
    obtain ⟨a, ha, h⟩ := Option.bind_eq_some_iff.mp h
    simp only [advance] at h
    split at h <;> cases h
    exact .setData ha ‹_›
  | didSetData i =>
    obtain ⟨a, ha, h⟩ := Option.bind_eq_some_iff.mp h
    simp only [advance] at h
    split at h <;> cases h
    exact .didSetData ha ‹_›

/-- `Auth` accepts no address twice. -/
theorem createUser_refused {s : Firestore × Flow} {i : ℕ} (account : Account) (a : Attempt)
    (hmem : account ∈ s.2.accounts) (ha : s.2.attempts[i]? = some a)
    (hemail : account.email = a.email) (uid : String) :
    step s (.createUser i (some uid)) = none := by
  have hused : ¬ Available s.1 s.2 a.email uid := fun h => (h.1 account hmem).1 hemail
  simp only [step, ha, Option.bind_some, advance, if_neg hused]
  split <;> rfl

/-! One screen, any number of taps. -/

/-- The document of an account holds its address. -/
def Documented (db : Firestore) (account : Account) : Prop :=
  ∃ data, db.lookup (userRef account.uid) = some data ∧ data.string "email" = some account.email

/-- Every account beyond the old ones has its document, and no attempt that has been
reported as failed has led to an account. -/
def AllOrNothing (old : List Account) (s : Firestore × Flow) : Prop :=
  (∀ account ∈ s.2.accounts, account ∉ old → Documented s.1 account) ∧
    ∀ a ∈ s.2.attempts, a.stage = .reported false → a.created = none

/-- Nothing has come of the attempt, and nothing will unless `Auth` still answers. -/
def Attempt.Empty (a : Attempt) : Prop :=
  a.created = none ∧
    (a.stage = .createUser ∨ a.stage = .didCreateUser false ∨ a.stage = .reported false)

/-- Where the one attempt stands that has led to an account. -/
def Follows (es : List Event) (db : Firestore) (account : Account) : Stage → Prop
  | .didCreateUser ok => ok = true ∧ (∀ i ok, .setData i ok ∉ es) ∧
      db.lookup (userRef account.uid) = none
  | .setData uid userDict => uid = account.uid ∧
      userDict.string "email" = some account.email ∧ (∀ i ok, .setData i ok ∉ es) ∧
      db.lookup (userRef account.uid) = none
  | .didSetData ok | .reported ok => (∃ i, .setData i ok ∈ es) ∧
      (∀ i ok', .setData i ok' ∈ es → ok' = ok) ∧ (ok = true ↔ Documented db account)
  | .createUser | .dropped => False

/-- Attempt `a` at index `j` has led to the one account that is new. -/
structure Led (old : List Account) (email : String) (es : List Event) (s : Firestore × Flow)
    (uid : String) (j : ℕ) (a : Attempt) : Prop where
  accounts : s.2.accounts = old ++ [⟨uid, email⟩]
  fresh : ⟨uid, email⟩ ∉ old
  signedIn : s.2.currentUser = some uid
  attempt : s.2.attempts[j]? = some a
  created : a.created = some uid
  follows : Follows es s.1 ⟨uid, email⟩ a.stage
  others : ∀ (k : ℕ) b, k ≠ j → s.2.attempts[k]? = some b → b.Empty

/-- What has come of the taps on a screen for one address. -/
structure Tracked (old : List Account) (email : String) (es : List Event)
    (s : Firestore × Flow) : Prop where
  user : ∃ user, s.2.stepThrees = [user] ∧ user.email = email
  attempts : ∀ a ∈ s.2.attempts, a.stepThree = 0 ∧ a.email = email
  account : (s.2.accounts = old ∧ (∀ a ∈ s.2.attempts, a.Empty) ∧ ∀ i ok, .setData i ok ∉ es) ∨
    ∃ uid j a, Led old email es s uid j a

theorem Attempt.empty_new (j : ℕ) (email : String) : Empty ⟨j, email, none, .createUser⟩ :=
  ⟨rfl, .inl rfl⟩

/-- No write is answered for an attempt from which nothing has come. -/
theorem Attempt.Empty.not_writing {a : Attempt} (h : a.Empty) :
    (∀ uid d, a.stage ≠ .setData uid d) ∧ (∀ ok, a.stage ≠ .didSetData ok) ∧
      a.stage ≠ .didCreateUser true := by
  rcases h.2 with hs | hs | hs <;> simp [hs]

theorem not_mem_concat {es : List Event} {e : Event} (he : ∀ i ok, e ≠ .setData i ok)
    (h : ∀ i ok, .setData i ok ∉ es) : ∀ i ok, .setData i ok ∉ es ++ [e] := by
  intro i ok hmem
  rcases List.mem_append.mp hmem with hmem | hmem
  · exact h i ok hmem
  · exact he i ok (List.mem_singleton.mp hmem).symm

theorem Follows.concat {es : List Event} {db : Firestore} {account : Account} {stage : Stage}
    {e : Event} (h : Follows es db account stage) (he : ∀ i ok, e ≠ .setData i ok) :
    Follows (es ++ [e]) db account stage := by
  have hwritten : ∀ ok, ((∃ i, .setData i ok ∈ es) ∧
      (∀ i ok', .setData i ok' ∈ es → ok' = ok) ∧ (ok = true ↔ Documented db account)) →
      (∃ i, .setData i ok ∈ es ++ [e]) ∧
      (∀ i ok', .setData i ok' ∈ es ++ [e] → ok' = ok) ∧
      (ok = true ↔ Documented db account) := by
    rintro ok ⟨⟨i, hi⟩, hall, hdoc⟩
    refine ⟨⟨i, List.mem_append_left _ hi⟩, fun i ok' hmem => ?_, hdoc⟩
    rcases List.mem_append.mp hmem with hmem | hmem
    · exact hall i ok' hmem
    · exact absurd (List.mem_singleton.mp hmem).symm (he i ok')
  cases stage with
  | createUser => exact h
  | didCreateUser ok => exact ⟨h.1, not_mem_concat he h.2.1, h.2.2⟩
  | setData uid d => exact ⟨h.1, h.2.1, not_mem_concat he h.2.2.1, h.2.2.2⟩
  | didSetData ok => exact hwritten ok h
  | reported ok => exact hwritten ok h
  | dropped => exact h

section
variable {old : List Account} {email : String} {es : List Event} {s : Firestore × Flow}
  {e : Event} {i : ℕ} {a : Attempt} {stage : Stage}

theorem getElem?_setStage (f : Flow) (i : ℕ) (stage : Stage) (k : ℕ) :
    (f.setStage i stage).attempts[k]? = (f.attempts[k]?).map fun a =>
      if i = k then { a with stage } else a := by
  simp only [Flow.setStage, List.getElem?_modify]
  cases f.attempts[k]? with
  | none => rfl
  | some a => split_ifs <;> rfl

/-- An attempt from which nothing has come goes on, and nothing comes of it now. -/
theorem Tracked.setStage (h : Tracked old email es s) (he : ∀ i ok, e ≠ .setData i ok)
    (ha : s.2.attempts[i]? = some a) (hempty : a.Empty)
    (hstage : stage = .didCreateUser false ∨ stage = .reported false) (hud : HUD) :
    Tracked old email (es ++ [e]) (s.1, { s.2 with hud }.setStage i stage) := by
  have hmoved : Attempt.Empty { a with stage } := ⟨hempty.1, .inr hstage⟩
  refine ⟨h.user, forall_mem_modify h.attempts fun b hb => h.attempts b (List.mem_of_getElem? hb),
    ?_⟩
  rcases h.account with ⟨haccounts, hall, hnone⟩ | ⟨uid, j, b, hled⟩
  · refine .inl ⟨haccounts, forall_mem_modify hall fun b hb => ?_, not_mem_concat he hnone⟩
    obtain rfl : a = b := Option.some.inj (ha.symm.trans hb)
    exact hmoved
  · have hij : i ≠ j := by
      rintro rfl
      obtain rfl : a = b := Option.some.inj (ha.symm.trans hled.attempt)
      have hcreated := hled.created
      rw [hempty.1] at hcreated
      cases hcreated
    refine .inr ⟨uid, j, b, hled.accounts, hled.fresh, hled.signedIn, ?_, hled.created,
      hled.follows.concat he, fun k b' hk hb' => ?_⟩
    · rw [getElem?_setStage, hled.attempt, Option.map_some, if_neg hij]
    · rw [getElem?_setStage] at hb'
      obtain ⟨b'', hb'', rfl⟩ := Option.map_eq_some_iff.mp hb'
      split_ifs with hik
      · subst hik
        obtain rfl : a = b'' := Option.some.inj (ha.symm.trans hb'')
        exact hmoved
      · exact hled.others k b'' hk hb''

/-- The attempt that has led to an account goes on. -/
theorem Led.setStage {uid : String} {db : Firestore} (h : Led old email es s uid i a)
    (hfollows : Follows (es ++ [e]) db ⟨uid, email⟩ stage) (hud : HUD) :
    Led old email (es ++ [e]) (db, { s.2 with hud }.setStage i stage) uid i { a with stage } where
  accounts := h.accounts
  fresh := h.fresh
  signedIn := h.signedIn
  attempt := by rw [getElem?_setStage, h.attempt, Option.map_some, if_pos rfl]
  created := h.created
  follows := hfollows
  others k b hk hb := by
    rw [getElem?_setStage] at hb
    obtain ⟨b', hb', rfl⟩ := Option.map_eq_some_iff.mp hb
    rw [if_neg (Ne.symm hk)]
    exact h.others k b' hk hb'

theorem Tracked.setStage_led {uid : String} {db : Firestore} (h : Tracked old email es s)
    (hled : Led old email es s uid i a) (hfollows : Follows (es ++ [e]) db ⟨uid, email⟩ stage)
    (hud : HUD) : Tracked old email (es ++ [e]) (db, { s.2 with hud }.setStage i stage) where
  user := h.user
  attempts := forall_mem_modify h.attempts fun b hb => h.attempts b (List.mem_of_getElem? hb)
  account := .inr ⟨uid, i, _, hled.setStage hfollows hud⟩

theorem Tracked.empty_or_led (h : Tracked old email es s) (ha : s.2.attempts[i]? = some a) :
    a.Empty ∨ ∃ uid, Led old email es s uid i a := by
  rcases h.account with ⟨-, hall, -⟩ | ⟨uid, j, b, hled⟩
  · exact .inl (hall a (List.mem_of_getElem? ha))
  · by_cases hij : i = j
    · subst hij
      obtain rfl : a = b := Option.some.inj (ha.symm.trans hled.attempt)
      exact .inr ⟨uid, hled⟩
    · exact .inl (hled.others i a hij ha)

/-- Another attempt leaves the one that has led to an account where it is. -/
theorem Led.concat {uid : String} {b : Attempt} {f : Flow} (h : Led old email es s uid i a)
    (he : ∀ i ok, e ≠ .setData i ok) (hb : b.Empty) (haccounts : f.accounts = s.2.accounts)
    (huser : f.currentUser = s.2.currentUser) (hattempts : f.attempts = s.2.attempts ++ [b]) :
    Led old email (es ++ [e]) (s.1, f) uid i a where
  accounts := haccounts.trans h.accounts
  fresh := h.fresh
  signedIn := huser.trans h.signedIn
  attempt := by rw [hattempts, getElem?_concat_of_some h.attempt]
  created := h.created
  follows := h.follows.concat he
  others k c hk hc := by
    rw [hattempts] at hc
    rcases getElem?_concat_cases hc with hc | ⟨-, rfl⟩
    · exact h.others k c hk hc
    · exact hb

/-- Where nothing has come of any attempt, the account that `Auth` creates is the first. -/
theorem Led.create {uid : String} (haccounts : s.2.accounts = old)
    (hall : ∀ a ∈ s.2.attempts, a.Empty) (hnone : ∀ i ok, .setData i ok ∉ es)
    (ha : s.2.attempts[i]? = some a) (huid : Available s.1 s.2 email uid)
    (he : ∀ i ok, e ≠ .setData i ok) :
    Led old email (es ++ [e]) (s.1, create s.2 i email uid) uid i
      { a with created := some uid, stage := .didCreateUser true } where
  accounts := by rw [← haccounts]; rfl
  fresh hold := (huid.1 _ (haccounts ▸ hold)).1 rfl
  signedIn := rfl
  attempt := by simp [Registration.create, ha]
  created := rfl
  follows := ⟨rfl, not_mem_concat he hnone, by simpa using huid.2⟩
  others k b hk hb := by
    have hb : s.2.attempts[k]? = some b := by
      simpa [Registration.create, List.getElem?_modify, Ne.symm hk] using hb
    exact hall b (List.mem_of_getElem? hb)

/-- The answer to the write decides whether the account has its document. -/
theorem Follows.answer {db : Firestore} {account : Account} {uid : String}
    {userDict : Dictionary} (h : Follows es db account (.setData uid userDict)) (ok : Bool) :
    Follows (es ++ [.setData i ok])
      (if ok then db.insert (userRef uid) userDict else db) account (.didSetData ok) := by
  obtain ⟨rfl, hemail, hnone, hdoc⟩ := h
  refine ⟨⟨i, by simp⟩, fun k ok' hmem => ?_, ?_⟩
  · rcases List.mem_append.mp hmem with hmem | hmem
    · exact absurd hmem (hnone k ok')
    · obtain ⟨-, rfl⟩ := Event.setData.inj (List.mem_singleton.mp hmem)
      rfl
  · cases ok with
    | true => exact iff_of_true rfl ⟨userDict, by simp, hemail⟩
    | false => simp [Documented, hdoc]

theorem step_tracked {t : Firestore × Flow} (hs : Tracked old email es s)
    (h : step s e = some t) : Tracked old email (es ++ [e]) t := by
  cases step_cases h with
  | @finishButtonDidTap j name user huser =>
    obtain ⟨user', husers, hemail⟩ := hs.user
    obtain ⟨rfl, rfl⟩ : j = 0 ∧ user' = user := by
      rw [husers] at huser
      cases j with
      | zero => exact ⟨rfl, Option.some.inj huser⟩
      | succ j => simp at huser
    have hnew := Attempt.empty_new 0 user'.email
    refine ⟨⟨{ user' with name }, by simp [husers], hemail⟩,
      forall_mem_concat hs.attempts ⟨rfl, hemail⟩, ?_⟩
    rcases hs.account with ⟨haccounts, hall, hnone⟩ | ⟨uid, j, a, hled⟩
    · exact .inl ⟨haccounts, forall_mem_concat hall hnew, not_mem_concat (by simp) hnone⟩
    · exact .inr ⟨uid, j, a, hled.concat (by simp) hnew rfl rfl rfl⟩
  | @created i uid a ha hstage huid =>
    obtain rfl := (hs.attempts a (List.mem_of_getElem? ha)).2
    rcases hs.account with ⟨haccounts, hall, hnone⟩ | ⟨uid', j, b, hled⟩
    · exact ⟨hs.user, forall_mem_modify hs.attempts fun b hb =>
        hs.attempts b (List.mem_of_getElem? hb),
        .inr ⟨uid, i, _, Led.create haccounts hall hnone ha huid (by simp)⟩⟩
    · have hmem : (⟨uid', a.email⟩ : Account) ∈ s.2.accounts := by simp [hled.accounts]
      exact absurd rfl (huid.1 _ hmem).1
  | @refused i a ha hstage =>
    rcases hs.empty_or_led ha with hempty | ⟨uid, hled⟩
    · exact hs.setStage (by simp) ha hempty (.inl rfl) s.2.hud
    · have hfollows := hled.follows
      rw [hstage] at hfollows
      exact hfollows.elim
  | @didCreateUser i a ok ha hstage =>
    rcases hs.empty_or_led ha with hempty | ⟨uid, hled⟩
    · cases ok with
      | true => exact absurd hstage hempty.not_writing.2.2
      | false => exact hs.setStage (by simp) ha hempty (.inr rfl) s.2.hud.hideLoading
    · have hfollows := hled.follows
      rw [hstage] at hfollows
      obtain ⟨rfl, hnone, hdoc⟩ := hfollows
      obtain ⟨user, husers, hemail⟩ := hs.user
      have hscreen := (hs.attempts a (List.mem_of_getElem? ha)).1
      have hcall : didCreateUser s.2 a true = (s.2, .setData uid user.dictionary) := by
        simp [didCreateUser, hled.signedIn, husers, hscreen]
      have hnext : Follows (es ++ [.didCreateUser i]) s.1 ⟨uid, email⟩
          (.setData uid user.dictionary) :=
        ⟨rfl, hemail ▸ rfl, not_mem_concat (by simp) hnone, hdoc⟩
      rw [hcall]
      exact hs.setStage_led hled hnext s.2.hud
  | @setData i a ok uid' userDict ha hstage =>
    rcases hs.empty_or_led ha with hempty | ⟨uid, hled⟩
    · exact absurd hstage (hempty.not_writing.1 uid' userDict)
    · have hfollows := hled.follows
      rw [hstage] at hfollows
      exact hs.setStage_led hled (hfollows.answer ok) s.2.hud
  | @didSetData i a ok ha hstage =>
    rcases hs.empty_or_led ha with hempty | ⟨uid, hled⟩
    · exact absurd hstage (hempty.not_writing.2.1 ok)
    · have hfollows := hled.follows.concat (e := .didSetData i) (by simp)
      rw [hstage] at hfollows
      have hnext : Follows (es ++ [.didSetData i]) s.1 ⟨uid, email⟩ (.reported ok) := hfollows
      exact hs.setStage_led hled hnext s.2.hud.hideLoading

/-- The led attempt decides whether accounts and documents agree. -/
theorem Led.allOrNothing_iff {uid : String} {ok : Bool} (h : Led old email es s uid i a)
    (hstage : a.stage = .reported ok) : AllOrNothing old s ↔ ok = true := by
  have hfollows := h.follows
  rw [hstage] at hfollows
  obtain ⟨-, -, hdoc⟩ := hfollows
  constructor
  · intro hall
    exact hdoc.mpr (hall.1 ⟨uid, email⟩ (by simp [h.accounts]) h.fresh)
  · rintro rfl
    refine ⟨fun account hmem hnew => ?_, fun b hb hfailed => ?_⟩
    · rw [h.accounts] at hmem
      rcases List.mem_append.mp hmem with hmem | hmem
      · exact absurd hmem hnew
      · obtain rfl := List.mem_singleton.mp hmem
        exact hdoc.mp rfl
    · obtain ⟨k, hk⟩ := List.mem_iff_getElem?.mp hb
      by_cases hki : k = i
      · subst hki
        obtain rfl : a = b := Option.some.inj (h.attempt.symm.trans hk)
        cases hstage.symm.trans hfailed
      · exact (h.others k b hki hk).1

/-- Whatever is tapped and whatever `Auth` answers, accounts and documents agree when
no request is in flight exactly if no write has failed. -/
theorem all_or_nothing_iff {t : Firestore × Flow} {user : User}
    (husers : s.2.stepThrees = [user]) (hattempts : s.2.attempts = []) (hr : run step s es = some t)
    (hidle : t.2.idle = true) :
    AllOrNothing s.2.accounts t ↔ ∀ i ok, .setData i ok ∈ es → ok = true := by
  have htracked : Tracked s.2.accounts user.email es t :=
    invariant_of_prefix (I := Tracked s.2.accounts user.email)
      (fun _ _ _ _ _ hm hstep => step_tracked hm hstep)
      ⟨⟨user, husers, rfl⟩, by simp [hattempts], .inl ⟨rfl, by simp [hattempts], by simp⟩⟩ hr
  rcases htracked.account with ⟨haccounts, hall, hnone⟩ | ⟨uid, j, a, hled⟩
  · refine iff_of_true ⟨fun account hmem hnew => ?_, fun a ha _ => (hall a ha).1⟩
      fun i ok hmem => absurd hmem (hnone i ok)
    exact absurd (haccounts ▸ hmem) hnew
  · have hover := List.all_eq_true.mp hidle a (List.mem_of_getElem? hled.attempt)
    have hfollows := hled.follows
    cases hstage : a.stage with
    | reported ok =>
      rw [hstage] at hfollows
      obtain ⟨⟨i, hi⟩, hwrites, -⟩ := hfollows
      rw [hled.allOrNothing_iff hstage]
      constructor
      · rintro rfl k ok' hmem
        exact hwrites k ok' hmem
      · intro hwritten
        exact hwritten i ok hi
    | dropped =>
      rw [hstage] at hfollows
      exact hfollows.elim
    | createUser | didCreateUser | setData | didSetData => simp [hstage, Stage.isOver] at hover

end

/-- A screen for a new address. -/
def sampleFlow : Firestore × Flow :=
  (∅, ⟨[], none, ⟨none, 0, []⟩, [User.init "e" "" "secret"], []⟩)

/-- The account is created and its document cannot be written. -/
def sampleFailedWrite : List Event :=
  [.finishButtonDidTap 0 "n", .createUser 0 (some "u"), .didCreateUser 0, .setData 0 false,
    .didSetData 0]

/-- `Auth` refuses the first attempt, and the screen is used again. -/
def sampleRetry : List Event :=
  [.finishButtonDidTap 0 "n", .createUser 0 none, .didCreateUser 0, .finishButtonDidTap 0 "n",
    .createUser 1 (some "u"), .didCreateUser 1, .setData 1 true, .didSetData 1]

theorem all_or_nothing_iff_sample :
    ∃ t, run step sampleFlow sampleRetry = some t ∧ t.2.accounts = [⟨"u", "e"⟩] ∧
      AllOrNothing [] t := by
  have h := @all_or_nothing_iff sampleRetry sampleFlow _ _ rfl rfl rfl rfl
  exact ⟨_, rfl, rfl, h.mpr (by simp [sampleRetry])⟩

/-- An account without a document. -/
def sampleRemnant : Firestore × Flow :=
  (∅, ⟨[⟨"u", "e"⟩], some "u", ⟨some 0, 1, [0]⟩, [⟨"e", "n", "secret", false⟩],
    [⟨0, "e", some "u", .reported false⟩]⟩)

/-- The attempt is reported as failed, its account stays behind without a document, and
`Auth` refuses the address to the next attempt. -/
theorem failed_write_leaves_account :
    run step sampleFlow sampleFailedWrite = some sampleRemnant ∧ sampleRemnant.2.idle = true ∧
      ¬ AllOrNothing sampleFlow.2.accounts sampleRemnant ∧
      ∀ name m uid, step sampleRemnant (.finishButtonDidTap 0 name) = some m →
        step m (.createUser 1 (some uid)) = none := by
  refine ⟨rfl, rfl, fun h => ?_, fun name m uid hm => ?_⟩
  · have hcreated := h.2 ⟨0, "e", some "u", .reported false⟩ (by simp [sampleRemnant]) rfl
    cases hcreated
  · obtain rfl := Option.some.inj hm
    exact createUser_refused ⟨"u", "e"⟩ ⟨0, "e", none, .createUser⟩ (List.mem_singleton.mpr rfl)
      rfl rfl uid

end TaiwanSpots.Registration
