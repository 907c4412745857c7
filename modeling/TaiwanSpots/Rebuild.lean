import TaiwanSpots.Runs
import TaiwanSpots.API

/-!
# A rebuild of the database, callback by callback

`apiButtonDidTap` chains `removeSpots`, `removeCities` and `updataSpotsAPI`.
Each of them issues requests and hands its completion to a dispatch group. The
state of a rebuild is the stage of that chain, the counters of the current
group and the requests in flight. An event is one callback. The environment
decides beforehand what each request answers, and the list of events is any
order in which the answers arrive.

`sequential` carries the rebuild out request by request. Every complete run
leaves the documents that it leaves.
-/
namespace TaiwanSpots
open DocumentStore Runs

structure DispatchGroup where
  entered : ℕ
  left : ℕ
  deriving DecidableEq, Repr

/-- What the rebuild waits for. The first, third and fifth stages wait for one
answer, the others for the notify block of a group; the last three wait for
nothing but the requests still in flight. -/
inductive Stage where
  | removeSpots
  | deletingSpots
  | removeCities
  | deletingCities
  | getTaiwanSpots
  | settingCities
  | completed
  | returned
  | trapped
  deriving DecidableEq, Repr

structure Rebuild where
  count : ℤ
  stage : Stage
  group : DispatchGroup
  inFlight : List WriteRequest

/-- The answers of the environment: whether each listing yields a snapshot, what
the download yields, and which single requests fail. -/
structure Outcomes where
  spotsListed : Bool
  citiesListed : Bool
  data : Option Body
  fails : Label → Bool

/-- All Firestore requests succeed. -/
def Outcomes.AllSucceed (o : Outcomes) : Prop :=
  o.spotsListed = true ∧ o.citiesListed = true ∧ ∀ l, o.fails l = false

inductive Event where
  | getDocuments
  | dataTask
  | acknowledge (label : Label)
  | notify
  deriving DecidableEq, Repr

/-- The callbacks of Spots writes do not leave a group; all other writes do. -/
def Label.leaves : Label → Bool
  | .setSpot _ => false
  | _ => true

/-- The admin button. Nothing happens for other users. -/
def apiButtonDidTap (user : User) (count : ℤ) : Option Rebuild :=
  if user.isAdmin then some ⟨count, .removeSpots, ⟨0, 0⟩, []⟩ else none

/-- A loop with a new group. What it has issued before a path raises stays in flight. -/
def Rebuild.issue (p : Rebuild) (stage : Stage) (loop : Loop) : Rebuild :=
  { p with
    stage := if loop.trapped then .trapped else stage
    group := ⟨loop.entered, 0⟩
    inFlight := loop.requests }

/-- A stage ends and the next one starts by waiting for a single answer. -/
def Rebuild.goto (p : Rebuild) (stage : Stage) : Rebuild := { p with stage := stage }

/-- The snapshot of a listing arrives. Without one the chain ends. -/
def getDocuments (o : Outcomes) (db : Firestore) (p : Rebuild) : Option Rebuild :=
  match p.stage with
  | .removeSpots =>
    if o.spotsListed then
      some (p.issue .deletingSpots (removeSpots (db.documents .spots)))
    else some (p.goto .returned)
  | .removeCities =>
    if o.citiesListed then
      some (p.issue .deletingCities (removeCities (db.documents .cities)))
    else some (p.goto .returned)
  | _ => none

/-- The download arrives. -/
def dataTask (o : Outcomes) (p : Rebuild) : Option Rebuild :=
  match p.stage with
  | .getTaiwanSpots =>
    match getTaiwanSpots p.count o.data with
    | .completed spots => some (p.issue .settingCities (updataSpotsAPI spots))
    | .returned => some (p.goto .returned)
    | .trapped => some (p.goto .trapped)
  | _ => none

/-- A request is handled and its callback runs; after a trap nothing reads the group. -/
def acknowledge (o : Outcomes) (db : Firestore) (p : Rebuild) (label : Label) :
    Option (Firestore × Rebuild) :=
  match extract (fun r => r.label = label) p.inFlight with
  | some (r, rest) =>
    some (perform o.fails db r,
      { p with
        group := ⟨p.group.entered, if r.label.leaves then p.group.left + 1 else p.group.left⟩
        inFlight := rest })
  | none => none

/-- The notify block of the current group runs once the group is empty. -/
def notify (p : Rebuild) : Option Rebuild :=
  if p.group.left = p.group.entered then
    match p.stage with
    | .deletingSpots => some (p.goto .removeCities)
    | .deletingCities => some (p.goto .getTaiwanSpots)
    | .settingCities => some (p.goto .completed)
    | _ => none
  else none

def step (o : Outcomes) (s : Firestore × Rebuild) (e : Event) : Option (Firestore × Rebuild) :=
  match e with
  | .getDocuments => (getDocuments o s.1 s.2).map fun p => (s.1, p)
  | .dataTask => (dataTask o s.2).map fun p => (s.1, p)
  | .acknowledge label => acknowledge o s.1 s.2 label
  | .notify => (notify s.2).map fun p => (s.1, p)

/-- Nothing more will happen: the chain has ended and no request is in flight. -/
def Rebuild.Finished (p : Rebuild) : Prop :=
  (p.stage = .completed ∨ p.stage = .returned ∨ p.stage = .trapped) ∧ p.inFlight = []

/-! The bookkeeping of the dispatch groups. -/

/-- A loop enters its group once for each request that will leave it, and once more if
its path raises. -/
structure Loop.Balanced (l : Loop) : Prop where
  counts : l.trapped = false → l.entered = (l.requests.filter fun r => r.label.leaves).length
  bounded : (l.requests.filter fun r => r.label.leaves).length ≤ l.entered

theorem Loop.Balanced.done : Loop.done.Balanced := ⟨fun _ => rfl, le_rfl⟩

theorem Loop.Balanced.issue_enter {l : Loop} (h : l.Balanced) {r : WriteRequest}
    (hr : r.label.leaves = true) : (l.issue r).enter.Balanced := by
  constructor
  · intro htrap
    simp [hr, h.counts htrap]
  · simpa [hr] using h.bounded

theorem removeSpots_balanced (snapshots : List (String × Dictionary)) :
    (removeSpots snapshots).Balanced := by
  induction snapshots with
  | nil => exact .done
  | cons snapshot snapshots ih =>
    rw [removeSpots]
    cases snapshot.2.string "id" with
    | none => exact ih
    | some ids =>
      cases hpath : Collection.spots.document ids with
      | none => simpa [hpath] using ⟨by simp, by simp⟩
      | some ref => simpa [hpath] using ih.issue_enter rfl

theorem removeCities_balanced (snapshots : List (String × Dictionary)) :
    (removeCities snapshots).Balanced := by
  induction snapshots with
  | nil => exact .done
  | cons snapshot snapshots ih => exact ih.issue_enter rfl

theorem postCities_balanced (entries : List (Sigma fun _ : CityEnum => List String)) :
    (postCities entries).Balanced := by
  induction entries with
  | nil => exact .done
  | cons entry entries ih => exact ih.issue_enter rfl

theorem postSpots_entered (index : ℕ) (spots : List Spot) (dict : CityEnumDict) :
    (postSpots index spots dict).1.entered = 0 := by
  induction spots generalizing index dict with
  | nil => rfl
  | cons spot spots ih =>
    rw [postSpots]
    cases spot.city.bind CityEnum.ofRawValue with
    | none => exact ih _ _
    | some c =>
      cases hpath : Collection.spots.document spot.id with
      | none => rfl
      | some ref => simpa [hpath] using ih _ _

/-- No Spots write leaves a group. -/
theorem postSpots_leaves (index : ℕ) (spots : List Spot) (dict : CityEnumDict) :
    ((postSpots index spots dict).1.requests.filter fun r => r.label.leaves) = [] := by
  rw [List.filter_eq_nil_iff]
  intro r hr
  obtain ⟨_, _, _, _, _, _, rfl⟩ := of_mem_postSpots hr
  exact Bool.false_ne_true

theorem updataSpotsAPI_balanced (spots : List Spot) : (updataSpotsAPI spots).Balanced := by
  have hcities := postCities_balanced (postSpots 0 spots ∅).2.entries
  rw [updataSpotsAPI]
  cases htrap : (postSpots 0 spots ∅).1.trapped with
  | true =>
    rw [Loop.followedBy_of_trapped htrap]
    refine ⟨fun hf => ?_, ?_⟩
    · rw [htrap] at hf
      cases hf
    · rw [postSpots_leaves]
      exact Nat.zero_le _
  | false =>
    refine ⟨fun hf => ?_, ?_⟩
    · rw [Loop.trapped_followedBy htrap] at hf
      simpa [Loop.requests_followedBy htrap, Loop.entered_followedBy htrap, postSpots_entered,
        postSpots_leaves] using hcities.counts hf
    · simpa [Loop.requests_followedBy htrap, Loop.entered_followedBy htrap, postSpots_entered,
        postSpots_leaves] using hcities.bounded

/-- Requests are in flight only while their group is being waited for, after the last
group if they are Spots writes, or after a trap; the counters account for the rest. -/
structure Rebuild.Coherent (p : Rebuild) : Prop where
  counts : p.stage ≠ .trapped → p.group.entered =
    p.group.left + (p.inFlight.filter fun r => r.label.leaves).length
  bounded : p.group.left + (p.inFlight.filter fun r => r.label.leaves).length ≤ p.group.entered
  deleting : p.stage = .deletingSpots ∨ p.stage = .deletingCities →
    ∀ r ∈ p.inFlight, r.label.leaves = true
  idle : p.stage ≠ .deletingSpots → p.stage ≠ .deletingCities → p.stage ≠ .settingCities →
    p.stage ≠ .completed → p.stage ≠ .trapped → p.inFlight = []

/-- While deletes are waited for, an empty group means that none is in flight. -/
theorem Rebuild.Coherent.inFlight_eq_nil {p : Rebuild} (h : p.Coherent)
    (hs : p.stage = .deletingSpots ∨ p.stage = .deletingCities)
    (hg : p.group.left = p.group.entered) : p.inFlight = [] := by
  have hc := h.counts (by rcases hs with hs | hs <;> simp [hs])
  have hlen : (p.inFlight.filter fun r => r.label.leaves).length = 0 := by omega
  rw [List.length_eq_zero_iff, List.filter_eq_nil_iff] at hlen
  apply List.eq_nil_iff_forall_not_mem.mpr
  intro r hr
  exact hlen r hr (h.deleting hs r hr)

/-- While an answer to a listing or to the download is waited for, none is either. -/
theorem Rebuild.Coherent.idle_between {p : Rebuild} (h : p.Coherent)
    (hs : p.stage = .removeSpots ∨ p.stage = .removeCities ∨ p.stage = .getTaiwanSpots) :
    p.inFlight = [] := by
  rcases hs with hs | hs | hs <;>
    exact h.idle (by simp [hs]) (by simp [hs]) (by simp [hs]) (by simp [hs]) (by simp [hs])

theorem apiButtonDidTap_coherent {user : User} {count : ℤ} {p : Rebuild}
    (h : apiButtonDidTap user count = some p) : p.Coherent := by
  unfold apiButtonDidTap at h
  split_ifs at h
  obtain rfl := Option.some.inj h
  exact ⟨fun _ => rfl, le_rfl, by simp, by simp⟩

/-- Everything that one event can do. -/
theorem step_cases {o : Outcomes} {s t : Firestore × Rebuild} {e : Event}
    (h : step o s e = some t) :
    (e = .getDocuments ∧ s.2.stage = .removeSpots ∧ o.spotsListed = true ∧
      t = (s.1, s.2.issue .deletingSpots (removeSpots (s.1.documents .spots)))) ∨
    (e = .getDocuments ∧ s.2.stage = .removeSpots ∧ o.spotsListed = false ∧
      t = (s.1, s.2.goto .returned)) ∨
    (e = .getDocuments ∧ s.2.stage = .removeCities ∧ o.citiesListed = true ∧
      t = (s.1, s.2.issue .deletingCities (removeCities (s.1.documents .cities)))) ∨
    (e = .getDocuments ∧ s.2.stage = .removeCities ∧ o.citiesListed = false ∧
      t = (s.1, s.2.goto .returned)) ∨
    (e = .dataTask ∧ s.2.stage = .getTaiwanSpots ∧
      ((∃ spots, getTaiwanSpots s.2.count o.data = .completed spots ∧
          t = (s.1, s.2.issue .settingCities (updataSpotsAPI spots))) ∨
       (getTaiwanSpots s.2.count o.data = .returned ∧ t = (s.1, s.2.goto .returned)) ∨
       (getTaiwanSpots s.2.count o.data = .trapped ∧ t = (s.1, s.2.goto .trapped)))) ∨
    (∃ label r rest, e = .acknowledge label ∧
      extract (fun r => r.label = label) s.2.inFlight = some (r, rest) ∧
      t = (perform o.fails s.1 r, { s.2 with
        group := ⟨s.2.group.entered,
          if r.label.leaves then s.2.group.left + 1 else s.2.group.left⟩
        inFlight := rest })) ∨
    (e = .notify ∧ s.2.group.left = s.2.group.entered ∧
      ((s.2.stage = .deletingSpots ∧ t = (s.1, s.2.goto .removeCities)) ∨
       (s.2.stage = .deletingCities ∧ t = (s.1, s.2.goto .getTaiwanSpots)) ∨
       (s.2.stage = .settingCities ∧ t = (s.1, s.2.goto .completed)))) := by
  obtain ⟨db, p⟩ := s
  cases e with
  | getDocuments =>
    simp only [step, getDocuments, Option.map_eq_some_iff] at h
    obtain ⟨q, hq, rfl⟩ := h
    cases hp : p.stage <;> simp only [hp] at hq <;> try cases hq
    all_goals
      split_ifs at hq with hl
      all_goals
        obtain rfl := Option.some.inj hq
        simp [hl]
  | dataTask =>
    simp only [step, dataTask, Option.map_eq_some_iff] at h
    obtain ⟨q, hq, rfl⟩ := h
    cases hp : p.stage <;> simp only [hp] at hq <;> try cases hq
    cases hg : getTaiwanSpots p.count o.data <;> simp only [hg] at hq <;>
      obtain rfl := Option.some.inj hq <;> simp
  | acknowledge label =>
    simp only [step, acknowledge] at h
    cases he : extract (fun r => decide (r.label = label)) p.inFlight with
    | none => simp [he] at h
    | some out =>
      obtain ⟨r, rest⟩ := out
      simp only [he] at h
      obtain rfl := Option.some.inj h
      simp [he]
  | notify =>
    simp only [step, notify, Option.map_eq_some_iff] at h
    obtain ⟨q, hq, rfl⟩ := h
    split_ifs at hq with hg
    cases hp : p.stage <;> simp only [hp] at hq <;> try cases hq
    all_goals simp [hg]

theorem Rebuild.Coherent.issue {p : Rebuild} {stage : Stage} {loop : Loop}
    (hloop : loop.Balanced)
    (hstage : stage = .deletingSpots ∨ stage = .deletingCities ∨ stage = .settingCities)
    (hdel : stage ≠ .settingCities → ∀ r ∈ loop.requests, r.label.leaves = true) :
    (p.issue stage loop).Coherent := by
  cases htrap : loop.trapped with
  | true =>
    refine ⟨fun h => absurd (by simp [Rebuild.issue, htrap]) h, ?_, ?_, ?_⟩
    · simpa [Rebuild.issue] using hloop.bounded
    · simp [Rebuild.issue, htrap]
    · intro _ _ _ _ h
      exact absurd (by simp [Rebuild.issue, htrap]) h
  | false =>
    refine ⟨fun _ => ?_, ?_, fun h => ?_, fun h1 h2 h3 => ?_⟩
    · simpa [Rebuild.issue] using hloop.counts htrap
    · simpa [Rebuild.issue] using hloop.bounded
    · apply hdel
      rcases h with h | h <;> simp [Rebuild.issue, htrap] at h <;> simp [h]
    · simp only [Rebuild.issue, htrap, Bool.false_eq_true, if_false] at h1 h2 h3
      tauto

theorem Rebuild.Coherent.goto {p : Rebuild} {stage : Stage} (h : p.Coherent)
    (hst : p.stage ≠ .trapped) (hnil : p.inFlight = []) : (p.goto stage).Coherent :=
  ⟨fun _ => h.counts hst, h.bounded, by simp [Rebuild.goto, hnil], by simp [Rebuild.goto, hnil]⟩

/-- The callback of a request leaves the group if the request has been counted for it. -/
theorem filter_leaves_of_extract {rs qs : List WriteRequest} {r : WriteRequest} {label : Label}
    (he : extract (fun r => decide (r.label = label)) rs = some (r, qs)) (left : ℕ) :
    (if r.label.leaves then left + 1 else left) + (qs.filter fun r => r.label.leaves).length =
      left + (rs.filter fun r => r.label.leaves).length := by
  obtain ⟨pre, post, rfl, rfl, -, -⟩ := extract_eq_some he
  simp only [List.filter_append, List.filter_cons, List.length_append]
  by_cases hl : r.label.leaves = true
  · simp only [hl, if_true, List.length_cons]
    omega
  · simp only [hl, Bool.false_eq_true, if_false]

theorem step_coherent {o : Outcomes} {s t : Firestore × Rebuild} {e : Event}
    (hs : s.2.Coherent) (h : step o s e = some t) : t.2.Coherent := by
  rcases step_cases h with ⟨-, hst, -, rfl⟩ | ⟨-, hst, -, rfl⟩ | ⟨-, hst, -, rfl⟩ |
      ⟨-, hst, -, rfl⟩ | ⟨-, hst, h⟩ | ⟨label, r, rest, -, he, rfl⟩ | ⟨-, hg, h⟩
  · refine .issue (removeSpots_balanced _) (by simp) fun _ r hr => ?_
    obtain ⟨_, _, _, _, _, _, _, rfl⟩ := mem_removeSpots hr
    rfl
  · exact hs.goto (by simp [hst]) (hs.idle_between (.inl hst))
  · refine .issue (removeCities_balanced _) (by simp) fun _ r hr => ?_
    obtain ⟨_, _, _, rfl⟩ := mem_removeCities.mp hr
    rfl
  · exact hs.goto (by simp [hst]) (hs.idle_between (.inr (.inl hst)))
  · have hnil := hs.idle_between (.inr (.inr hst))
    rcases h with ⟨spots, -, rfl⟩ | ⟨-, rfl⟩ | ⟨-, rfl⟩
    · exact .issue (updataSpotsAPI_balanced _) (by simp) (by simp)
    · exact hs.goto (by simp [hst]) hnil
    · exact hs.goto (by simp [hst]) hnil
  · have hleft := filter_leaves_of_extract he s.2.group.left
    obtain ⟨pre, post, hin, rfl, -, -⟩ := extract_eq_some he
    refine ⟨fun hst => ?_, ?_, fun hst r' hr' => hs.deleting hst r' ?_,
      fun h1 h2 h3 h4 h5 => ?_⟩
    · exact (hs.counts hst).trans hleft.symm
    · exact hleft.le.trans hs.bounded
    · rw [hin]
      rcases List.mem_append.mp hr' with hr' | hr'
      · exact List.mem_append_left _ hr'
      · exact List.mem_append_right _ (List.mem_cons_of_mem _ hr')
    · have hnil := hs.idle h1 h2 h3 h4 h5
      simp [hnil] at hin
  · rcases h with ⟨hst, rfl⟩ | ⟨hst, rfl⟩ | ⟨hst, rfl⟩
    · exact hs.goto (by simp [hst]) (hs.inFlight_eq_nil (.inl hst) hg)
    · exact hs.goto (by simp [hst]) (hs.inFlight_eq_nil (.inr hst) hg)
    · exact ⟨fun _ => hs.counts (by simp [hst]), hs.bounded, by simp [Rebuild.goto],
        by simp [Rebuild.goto]⟩

/-! The rebuild carried out request by request. -/

/-- The last stage, from the answer of the download on. -/
def importSpots (o : Outcomes) (count : ℤ) (db : Firestore) : Firestore :=
  match getTaiwanSpots count o.data with
  | .completed spots => settle o.fails db (updataSpotsAPI spots).requests
  | _ => db

def clearCities (o : Outcomes) (count : ℤ) (db : Firestore) : Firestore :=
  if o.citiesListed then
    importSpots o count (settle o.fails db (removeCities (db.documents .cities)).requests)
  else db

def sequential (o : Outcomes) (count : ℤ) (db : Firestore) : Firestore :=
  if o.spotsListed then
    let loop := removeSpots (db.documents .spots)
    let swept := settle o.fails db loop.requests
    if loop.trapped then swept else clearCities o count swept
  else db

/-- What an unfinished rebuild still does, carried out request by request. -/
def finish (o : Outcomes) (s : Firestore × Rebuild) : Firestore :=
  match s.2.stage with
  | .removeSpots => sequential o s.2.count s.1
  | .deletingSpots => clearCities o s.2.count (settle o.fails s.1 s.2.inFlight)
  | .removeCities => clearCities o s.2.count s.1
  | .deletingCities => importSpots o s.2.count (settle o.fails s.1 s.2.inFlight)
  | .getTaiwanSpots => importSpots o s.2.count s.1
  | .settingCities | .completed | .trapped => settle o.fails s.1 s.2.inFlight
  | .returned => s.1

theorem importSpots_agree {o : Outcomes} {count : ℤ} {db db' : Firestore} (h : Agree db db') :
    Agree (importSpots o count db) (importSpots o count db') := by
  unfold importSpots
  cases getTaiwanSpots count o.data with
  | completed spots => exact h.settle _
  | returned => exact h
  | trapped => exact h

theorem clearCities_agree {o : Outcomes} {count : ℤ} {db db' : Firestore} (h : Agree db db') :
    Agree (clearCities o count db) (clearCities o count db') := by
  unfold clearCities
  split_ifs
  · apply importSpots_agree
    intro ref
    by_cases hc : ref.collection = .cities
    · obtain ⟨c, name⟩ := ref
      obtain rfl : c = .cities := hc
      rw [lookup_removeCities, lookup_removeCities, h]
    · rw [lookup_removeCities_of_ne hc, lookup_removeCities_of_ne hc, h]
  · exact h

/-- No event changes what the rebuild leaves in the end. -/
theorem finish_step {o : Outcomes} {s t : Firestore × Rebuild} {e : Event}
    (hs : s.2.Coherent) (h : step o s e = some t) : Agree (finish o t) (finish o s) := by
  rcases step_cases h with ⟨-, hst, hl, rfl⟩ | ⟨-, hst, hl, rfl⟩ | ⟨-, hst, hl, rfl⟩ |
      ⟨-, hst, hl, rfl⟩ | ⟨-, hst, h⟩ | ⟨label, r, rest, -, he, rfl⟩ | ⟨-, hg, h⟩
  · cases htrap : (removeSpots (s.1.documents .spots)).trapped <;>
      simp only [finish, hst, Rebuild.issue, sequential, hl, htrap, if_true, Bool.false_eq_true,
        if_false] <;> exact Agree.refl _
  · simp only [finish, hst, Rebuild.goto, sequential, hl]
    exact Agree.refl _
  · simp only [finish, hst, Rebuild.issue, clearCities, hl, removeCities_trapped, if_true,
      Bool.false_eq_true, if_false]
    exact Agree.refl _
  · simp only [finish, hst, Rebuild.goto, clearCities, hl]
    exact Agree.refl _
  · have hnil := hs.idle_between (.inr (.inr hst))
    rcases h with ⟨spots, hd, rfl⟩ | ⟨hd, rfl⟩ | ⟨hd, rfl⟩
    · cases htrap : (updataSpotsAPI spots).trapped <;>
        simp only [finish, hst, Rebuild.issue, importSpots, hd, htrap, if_true,
          Bool.false_eq_true, if_false] <;> exact Agree.refl _
    · simp only [finish, hst, Rebuild.goto, importSpots, hd]
      exact Agree.refl _
    · simp only [finish, hst, Rebuild.goto, importSpots, hd, hnil, settle_nil]
      exact Agree.refl _
  · have hpull : Agree (settle o.fails (perform o.fails s.1 r) rest)
        (settle o.fails s.1 s.2.inFlight) := settle_extract he
    have hne : s.2.inFlight ≠ [] := by
      obtain ⟨pre, post, hin, -⟩ := extract_eq_some he
      simp [hin]
    cases hst : s.2.stage with
    | deletingSpots => simpa only [finish, hst] using clearCities_agree hpull
    | deletingCities => simpa only [finish, hst] using importSpots_agree hpull
    | settingCities => simpa only [finish, hst] using hpull
    | completed => simpa only [finish, hst] using hpull
    | trapped => simpa only [finish, hst] using hpull
    | removeSpots | removeCities | getTaiwanSpots | returned =>
      exact absurd (hs.idle (by simp [hst]) (by simp [hst]) (by simp [hst]) (by simp [hst])
        (by simp [hst])) hne
  · rcases h with ⟨hst, rfl⟩ | ⟨hst, rfl⟩ | ⟨hst, rfl⟩
    · simp only [finish, hst, Rebuild.goto, hs.inFlight_eq_nil (.inl hst) hg, settle_nil]
      exact Agree.refl _
    · simp only [finish, hst, Rebuild.goto, hs.inFlight_eq_nil (.inr hst) hg, settle_nil]
      exact Agree.refl _
    · simp only [finish, hst, Rebuild.goto]
      exact Agree.refl _

/-- Every complete run of a rebuild, whatever fails and in whatever order the
answers arrive, leaves the documents of the sequential rebuild. -/
theorem run_agree_sequential {o : Outcomes} {user : User} {count : ℤ} {db : Firestore}
    {p : Rebuild} {es : List Event} {t : Firestore × Rebuild}
    (hp : apiButtonDidTap user count = some p) (hr : run (step o) (db, p) es = some t)
    (hf : t.2.Finished) : Agree t.1 (sequential o count db) := by
  have hstart : Agree (finish o (db, p)) (sequential o count db) := by
    unfold apiButtonDidTap at hp
    split_ifs at hp
    obtain rfl := Option.some.inj hp
    exact Agree.refl _
  have hinv := invariant_of_step
    (I := fun s => s.2.Coherent ∧ Agree (finish o s) (sequential o count db))
    (fun s e m hs hstep => ⟨step_coherent hs.1 hstep, (finish_step hs.1 hstep).trans hs.2⟩)
    ⟨apiButtonDidTap_coherent hp, hstart⟩ hr
  have hend : finish o t = t.1 := by
    obtain ⟨hst | hst | hst, hnil⟩ := hf <;> simp [finish, hst, hnil]
  exact hend ▸ hinv.2

/-- What holds while the rebuild that has started on `db` has not trapped: each loop that it
has come past has run to its end. -/
structure Untrapped (o : Outcomes) (db : Firestore) (s : Firestore × Rebuild) : Prop where
  start : s.2.stage = .removeSpots → s.2.inFlight = [] ∧ s.1 = db
  swept : s.2.stage = .removeSpots ∨ s.2.stage = .returned ∨ s.2.stage = .trapped ∨
    (removeSpots (db.documents .spots)).trapped = false
  posted : s.2.stage = .settingCities ∨ s.2.stage = .completed → ∃ spots,
    getTaiwanSpots s.2.count o.data = .completed spots ∧ Resolves spots

theorem step_untrapped {o : Outcomes} {db : Firestore} {s t : Firestore × Rebuild} {e : Event}
    (hs : Untrapped o db s) (h : step o s e = some t) : Untrapped o db t := by
  rcases step_cases h with ⟨-, hst, -, rfl⟩ | ⟨-, hst, -, rfl⟩ | ⟨-, hst, -, rfl⟩ |
      ⟨-, hst, -, rfl⟩ | ⟨-, hst, h⟩ | ⟨label, r, rest, -, he, rfl⟩ | ⟨-, hg, h⟩
  · obtain ⟨-, hdb⟩ := hs.start hst
    cases htrap : (removeSpots (db.documents .spots)).trapped <;>
      exact ⟨by simp [Rebuild.issue, hdb, htrap], by simp [Rebuild.issue, hdb, htrap],
        by simp [Rebuild.issue, hdb, htrap]⟩
  · exact ⟨by simp [Rebuild.goto], by simp [Rebuild.goto], by simp [Rebuild.goto]⟩
  · have hswept := hs.swept
    simp only [hst, reduceCtorEq, false_or] at hswept
    exact ⟨by simp [Rebuild.issue], .inr (.inr (.inr hswept)), by simp [Rebuild.issue]⟩
  · exact ⟨by simp [Rebuild.goto], by simp [Rebuild.goto], by simp [Rebuild.goto]⟩
  · have hswept := hs.swept
    simp only [hst, reduceCtorEq, false_or] at hswept
    rcases h with ⟨spots, hd, rfl⟩ | ⟨hd, rfl⟩ | ⟨hd, rfl⟩
    · refine ⟨fun h => ?_, .inr (.inr (.inr hswept)), fun h => ⟨spots, hd, ?_⟩⟩
      · cases htrap : (updataSpotsAPI spots).trapped <;> simp [Rebuild.issue, htrap] at h
      · rw [← updataSpotsAPI_trapped]
        cases htrap : (updataSpotsAPI spots).trapped with
        | false => rfl
        | true => simp [Rebuild.issue, htrap] at h
    · exact ⟨by simp [Rebuild.goto], by simp [Rebuild.goto], by simp [Rebuild.goto]⟩
    · exact ⟨by simp [Rebuild.goto], by simp [Rebuild.goto], by simp [Rebuild.goto]⟩
  · refine ⟨fun hst => ?_, hs.swept, hs.posted⟩
    obtain ⟨pre, post, hin, -⟩ := extract_eq_some he
    simp [(hs.start hst).1] at hin
  · have hswept := hs.swept
    rcases h with ⟨hst, rfl⟩ | ⟨hst, rfl⟩ | ⟨hst, rfl⟩ <;>
      simp only [hst, reduceCtorEq, false_or] at hswept
    · exact ⟨by simp [Rebuild.goto], .inr (.inr (.inr hswept)), by simp [Rebuild.goto]⟩
    · exact ⟨by simp [Rebuild.goto], .inr (.inr (.inr hswept)), by simp [Rebuild.goto]⟩
    · exact ⟨by simp [Rebuild.goto], .inr (.inr (.inr hswept)),
        fun _ => hs.posted (.inl hst)⟩

theorem count_of_step {o : Outcomes} {s t : Firestore × Rebuild} {e : Event}
    (h : step o s e = some t) : t.2.count = s.2.count := by
  rcases step_cases h with ⟨-, -, -, rfl⟩ | ⟨-, -, -, rfl⟩ | ⟨-, -, -, rfl⟩ |
      ⟨-, -, -, rfl⟩ | ⟨-, -, h⟩ | ⟨_, _, _, -, -, rfl⟩ | ⟨-, -, h⟩
  · rfl
  · rfl
  · rfl
  · rfl
  · rcases h with ⟨_, -, rfl⟩ | ⟨-, rfl⟩ | ⟨-, rfl⟩ <;> rfl
  · rfl
  · rcases h with ⟨-, rfl⟩ | ⟨-, rfl⟩ | ⟨-, rfl⟩ <;> rfl

/-- A rebuild whose completion has run has swept all that it has listed and has posted all
that it has downloaded. -/
theorem untrapped_of_completed {o : Outcomes} {user : User} {count : ℤ} {db : Firestore}
    {p : Rebuild} {es : List Event} {t : Firestore × Rebuild} {spots : List Spot}
    (hd : getTaiwanSpots count o.data = .completed spots)
    (hp : apiButtonDidTap user count = some p) (hr : run (step o) (db, p) es = some t)
    (hcompleted : t.2.stage = .completed) :
    (removeSpots (db.documents .spots)).trapped = false ∧ Resolves spots := by
  have hstart : Untrapped o db (db, p) ∧ p.count = count := by
    unfold apiButtonDidTap at hp
    split_ifs at hp
    obtain rfl := Option.some.inj hp
    exact ⟨⟨fun _ => ⟨rfl, rfl⟩, .inl rfl, by simp⟩, rfl⟩
  have hend : Untrapped o db t ∧ t.2.count = count := by
    refine invariant_of_step (I := fun s => Untrapped o db s ∧ s.2.count = count)
      (fun m e m' hm h => ⟨step_untrapped hm.1 h, ?_⟩) hstart hr
    exact (count_of_step h).trans hm.2
  have hswept := hend.1.swept
  simp only [hcompleted, reduceCtorEq, false_or] at hswept
  obtain ⟨spots', hd', hres⟩ := hend.1.posted (.inr hcompleted)
  rw [hend.2, hd] at hd'
  exact ⟨hswept, Import.completed.inj hd' ▸ hres⟩

end TaiwanSpots
