import TaiwanSpots.RebuildOutcome

/-!
# The phases of a rebuild

The log of a rebuild lists what its callbacks did, in order: the groups that they
entered, the requests that they issued, the acknowledgements that ran and the
completions that they called. The actions of the log carry numbers for the phases of
the chain. The log is sorted by them, up to the Spots writes, which no group waits
for; and what has been issued is what has been acknowledged and what is still in
flight. After a trap no callback runs, and the log stays as it is.
-/
namespace TaiwanSpots
open DocumentStore Runs

/-- The functions of `API` that call a completion. Three of them own a group. -/
inductive Function where
  | removeSpots
  | removeCities
  | getTaiwanSpots
  | updataSpotsAPI
  deriving DecidableEq, Repr

inductive Action where
  | getDocuments (collection : Collection)
  | enter (function : Function)
  | issue (label : Label)
  | dataTask
  | acknowledge (label : Label)
  | completion (function : Function)
  deriving DecidableEq, Repr

/-- A statement in a loop of the function. -/
def Statement.action (f : Function) : Statement → Action
  | .enter => .enter f
  | .issue r => .issue r.label

def issues (f : Function) (loop : Loop) : List Action := loop.statements.map (Statement.action f)

/-- What the callback that runs at an event does. -/
def actions (o : Outcomes) (s : Firestore × Rebuild) : Event → List Action
  | .getDocuments =>
    match s.2.stage with
    | .removeSpots =>
      if o.spotsListed then issues .removeSpots (removeSpots (s.1.documents .spots)) else []
    | .removeCities =>
      if o.citiesListed then issues .removeCities (removeCities (s.1.documents .cities)) else []
    | _ => []
  | .dataTask =>
    match getTaiwanSpots s.2.count o.data with
    | .completed spots =>
      .completion .getTaiwanSpots :: issues .updataSpotsAPI (updataSpotsAPI spots)
    | _ => []
  | .acknowledge label => if s.2.stage = .trapped then [] else [.acknowledge label]
  | .notify =>
    match s.2.stage with
    | .deletingSpots => [.completion .removeSpots, .getDocuments .cities]
    | .deletingCities => [.completion .removeCities, .dataTask]
    | .settingCities => [.completion .updataSpotsAPI]
    | _ => []

/-- The log of a run, from the listing that the button itself issues. -/
def log (o : Outcomes) (s : Firestore × Rebuild) (es : List Event) : List Action :=
  .getDocuments .spots :: go s es
where
  go (s : Firestore × Rebuild) : List Event → List Action
    | [] => []
    | e :: es => actions o s e ++ ((step o s e).elim [] fun t => go t es)

theorem log_go_concat {o : Outcomes} {s m : Firestore × Rebuild} {es : List Event} {e : Event}
    (h : run (step o) s es = some m) :
    log.go o s (es ++ [e]) = log.go o s es ++ actions o m e := by
  induction es generalizing s with
  | nil =>
    obtain rfl := Option.some.inj h
    cases he : step o s e <;> simp [log.go, he]
  | cons e' es ih =>
    obtain ⟨m', hm', hrest⟩ := run_cons.mp h
    simp [log.go, hm', ih hrest]

theorem log_concat {o : Outcomes} {s m : Firestore × Rebuild} {es : List Event} {e : Event}
    (h : run (step o) s es = some m) : log o s (es ++ [e]) = log o s es ++ actions o m e := by
  rw [log, log_go_concat h]
  rfl

/-- The function whose group the callback of a request leaves. -/
def Label.group : Label → Option Function
  | .deleteSpot _ => some .removeSpots
  | .deleteCity _ => some .removeCities
  | .setSpot _ => none
  | .setCity _ => some .updataSpotsAPI

theorem Label.leaves_eq (label : Label) : label.leaves = label.group.isSome := by
  cases label <;> rfl

/-- The callback of a request leaves the group of its function. -/
def Action.leaves (f : Function) : Action → Bool
  | .acknowledge label => label.group = some f
  | _ => false

/-- The phases of a rebuild do not overlap. -/
structure Phases (l : List Action) : Prop where
  /-- Before a Cities listing or delete, every Spots delete is acknowledged. -/
  spots_swept : ∀ pre a post, l = pre ++ a :: post →
    (a = .getDocuments .cities ∨ ∃ name, a = .issue (.deleteCity name)) →
    ∀ id, pre.count (.acknowledge (.deleteSpot id)) = l.count (.issue (.deleteSpot id))
  /-- Before the download or a write, every Cities delete is acknowledged. -/
  cities_swept : ∀ pre a post, l = pre ++ a :: post →
    (a = .dataTask ∨ (∃ i, a = .issue (.setSpot i)) ∨ ∃ c, a = .issue (.setCity c)) →
    ∀ name, pre.count (.acknowledge (.deleteCity name)) = l.count (.issue (.deleteCity name))
  /-- Before the final completion, every Cities write is acknowledged. -/
  cities_written : ∀ pre post, l = pre ++ .completion .updataSpotsAPI :: post →
    ∀ c, pre.count (.acknowledge (.setCity c)) = l.count (.issue (.setCity c))
  once : ∀ f, l.count (.completion f) ≤ 1
  groups : ∀ f, l.countP (Action.leaves f) ≤ l.count (.enter f)

/-! The phases, and how far a stage has come. -/

def Label.phase : Label → ℕ
  | .deleteSpot _ => 1
  | .deleteCity _ => 4
  | .setSpot _ | .setCity _ => 8

/-- The acknowledgement of a Spots write belongs to no phase. -/
def Action.phase : Action → Option ℕ
  | .getDocuments .spots => some 0
  | .getDocuments .cities => some 3
  | .getDocuments _ => none
  | .enter .removeSpots => some 1
  | .enter .removeCities => some 4
  | .enter .updataSpotsAPI => some 8
  | .enter .getTaiwanSpots => none
  | .issue label => some label.phase
  | .acknowledge label => if label.group.isSome then some label.phase else none
  | .completion .removeSpots => some 2
  | .completion .removeCities => some 5
  | .dataTask => some 6
  | .completion .getTaiwanSpots => some 7
  | .completion .updataSpotsAPI => some 9

/-- The last phase with an action in the log. -/
def Stage.reached : Stage → ℕ
  | .removeSpots => 0
  | .deletingSpots => 1
  | .removeCities => 3
  | .deletingCities => 4
  | .getTaiwanSpots => 6
  | .settingCities => 8
  | .completed | .returned | .trapped => 9

/-- Neither action is of an earlier phase than the one before it. -/
def Precedes (a b : Action) : Prop := ∀ m n, a.phase = some m → b.phase = some n → m ≤ n

def Action.isIssue (P : Label → Bool) : Action → Bool
  | .issue label => P label
  | _ => false

def Action.isAcknowledge (P : Label → Bool) : Action → Bool
  | .acknowledge label => P label
  | _ => false

/-- What holds of a log that has come to a phase, with requests not yet acknowledged. -/
structure Entries (l : List Action) (reached : ℕ) (pending : List WriteRequest) : Prop where
  counts : ∀ P : Label → Bool, l.countP (Action.isIssue P) =
    l.countP (Action.isAcknowledge P) + pending.countP fun r => P r.label
  sorted : l.Pairwise Precedes
  bounded : ∀ a ∈ l, ∀ n, a.phase = some n → n ≤ reached
  waiting : ∀ r ∈ pending, r.label.group.isSome = true → r.label.phase = reached
  once : ∀ f, l.count (.completion f) ≤ 1
  entered : ∀ f, l.countP (Action.isIssue fun label => label.group = some f) ≤ l.count (.enter f)

/-- What relates a rebuild to its log. After a trap the log has stopped somewhere. -/
structure Logged (l : List Action) (p : Rebuild) : Prop where
  coherent : p.Coherent
  entries : ∃ reached pending, Entries l reached pending ∧
    (p.stage ≠ .trapped → reached = p.stage.reached ∧ pending = p.inFlight)
  completed : p.stage ≠ .returned → p.stage ≠ .trapped →
    ∀ f n, (Action.completion f).phase = some n → n ≤ p.stage.reached → .completion f ∈ l

theorem Logged.running {l : List Action} {p : Rebuild} (h : Logged l p)
    (hp : p.stage ≠ .trapped) : Entries l p.stage.reached p.inFlight := by
  obtain ⟨reached, pending, hentries, hsame⟩ := h.entries
  obtain ⟨rfl, rfl⟩ := hsame hp
  exact hentries

/-! Lists of issued requests. -/

theorem countP_isIssue_issues (P : Label → Bool) (f : Function) (loop : Loop) :
    (issues f loop).countP (Action.isIssue P) = loop.requests.countP fun r => P r.label := by
  rw [issues, Loop.requests, List.countP_map, List.countP_filterMap]
  refine List.countP_congr fun statement _ => ?_
  cases statement <;> simp [Statement.action, Statement.request, Action.isIssue]

theorem countP_isAcknowledge_issues (P : Label → Bool) (f : Function) (loop : Loop) :
    (issues f loop).countP (Action.isAcknowledge P) = 0 := by
  rw [issues, List.countP_map, List.countP_eq_zero]
  intro statement _
  cases statement <;> simp [Statement.action, Action.isAcknowledge]

theorem count_enter_issues (f : Function) (loop : Loop) :
    (issues f loop).count (.enter f) = loop.entered := by
  rw [issues, Loop.entered, List.count, List.countP_map]
  refine List.countP_congr fun statement _ => ?_
  cases statement <;> simp [Statement.action, Statement.request]

theorem completion_not_mem_issues (f g : Function) (loop : Loop) :
    .completion f ∉ issues g loop := by
  intro h
  obtain ⟨statement, -, heq⟩ := List.mem_map.mp h
  cases statement <;> cases heq

/-- A loop that enters only its own group enters it for each request that will leave it. -/
theorem Loop.Balanced.entered_issues {f : Function} {loop : Loop} (h : loop.Balanced)
    (hgroup : ∀ r ∈ loop.requests, r.label.group = some f ∨ r.label.group = none) (g : Function) :
    (issues f loop).countP (Action.isIssue fun label => label.group = some g) ≤
      (issues f loop).count (.enter g) := by
  rw [countP_isIssue_issues]
  by_cases hg : f = g
  · subst hg
    rw [count_enter_issues]
    refine le_trans (le_of_eq ?_) h.bounded
    rw [← List.countP_eq_length_filter]
    refine List.countP_congr fun r hr => ?_
    rw [Label.leaves_eq]
    rcases hgroup r hr with heq | heq <;> simp [heq]
  · refine le_of_eq_of_le (List.countP_eq_zero.mpr fun r hr => ?_) (Nat.zero_le _)
    rcases hgroup r hr with heq | heq <;> simp [heq, hg]

theorem phase_of_mem_issues {f : Function} {loop : Loop} {n : ℕ}
    (hf : (Action.enter f).phase = some n) (h : ∀ r ∈ loop.requests, r.label.phase = n)
    {a : Action} (ha : a ∈ issues f loop) : a.phase = some n := by
  obtain ⟨statement, hmem, rfl⟩ := List.mem_map.mp ha
  cases statement with
  | enter => exact hf
  | issue r =>
    rw [← h r (List.mem_filterMap.mpr ⟨_, hmem, rfl⟩)]
    rfl

theorem pairwise_of_phase {l : List Action} {n : ℕ} (h : ∀ a ∈ l, a.phase = some n) :
    l.Pairwise Precedes := by
  rw [List.pairwise_iff_forall_sublist]
  intro a b hab i j hi hj
  have ha := h a (hab.subset (by simp))
  have hb := h b (hab.subset (by simp))
  rw [ha, Option.some.injEq] at hi
  rw [hb, Option.some.injEq] at hj
  omega

theorem of_mem_removeSpots_requests {db : Firestore} {r : WriteRequest}
    (h : r ∈ (removeSpots (db.documents .spots)).requests) :
    r.label.phase = 1 ∧ r.label.group = some .removeSpots := by
  obtain ⟨_, _, _, _, _, _, _, rfl⟩ := mem_removeSpots h
  exact ⟨rfl, rfl⟩

theorem of_mem_removeCities_requests {db : Firestore} {r : WriteRequest}
    (h : r ∈ (removeCities (db.documents .cities)).requests) :
    r.label.phase = 4 ∧ r.label.group = some .removeCities := by
  obtain ⟨_, _, _, rfl⟩ := mem_removeCities.mp h
  exact ⟨rfl, rfl⟩

theorem of_mem_updataSpotsAPI_requests {spots : List Spot} {r : WriteRequest}
    (h : r ∈ (updataSpotsAPI spots).requests) : r.label.phase = 8 ∧
      (r.label.group = some .updataSpotsAPI ∨ r.label.group = none) := by
  rcases mem_updataSpotsAPI h with ⟨_, _, _, _, _, _, rfl⟩ | ⟨-, _, _, rfl⟩
  · exact ⟨rfl, .inr rfl⟩
  · exact ⟨rfl, .inl rfl⟩

/-- The log goes on with actions of phases between the two that it has come to. -/
theorem Logged.extend {l bs : List Action} {p q : Rebuild} {reached : ℕ} (h : Logged l p)
    (hp : p.stage ≠ .trapped) (hq : q.Coherent)
    (hreached : q.stage ≠ .trapped → reached = q.stage.reached)
    (hcounts : ∀ P : Label → Bool, bs.countP (Action.isIssue P) +
      (p.inFlight.countP fun r => P r.label) =
        bs.countP (Action.isAcknowledge P) + q.inFlight.countP fun r => P r.label)
    (hsorted : bs.Pairwise Precedes) (hle : p.stage.reached ≤ reached)
    (hphases : ∀ a ∈ bs, ∀ n, a.phase = some n → p.stage.reached ≤ n ∧ n ≤ reached)
    (hwaiting : ∀ r ∈ q.inFlight, r.label.group.isSome = true → r.label.phase = reached)
    (honce : ∀ f, .completion f ∈ bs → bs.count (.completion f) = 1 ∧ .completion f ∉ l)
    (hentered : ∀ f, bs.countP (Action.isIssue fun label => label.group = some f) ≤
      bs.count (.enter f))
    (hcompleted : q.stage ≠ .returned → q.stage ≠ .trapped → ∀ f n,
      (Action.completion f).phase = some n → n ≤ q.stage.reached →
        .completion f ∈ l ∨ .completion f ∈ bs) : Logged (l ++ bs) q := by
  have hl := h.running hp
  refine ⟨hq, ⟨reached, q.inFlight, ⟨fun P => ?_, ?_, fun a ha n hn => ?_, hwaiting, fun f => ?_,
    fun f => ?_⟩, fun hrunning => ⟨hreached hrunning, rfl⟩⟩,
    fun hr ht f n hn hle => List.mem_append.mpr (hcompleted hr ht f n hn hle)⟩
  · have hbefore := hl.counts P
    have hnow := hcounts P
    rw [List.countP_append, List.countP_append]
    omega
  · rw [List.pairwise_append]
    refine ⟨hl.sorted, hsorted, fun a ha b hb m n hm hn => ?_⟩
    have hfirst := hl.bounded a ha m hm
    have hsecond := (hphases b hb n hn).1
    omega
  · rcases List.mem_append.mp ha with ha | ha
    · have hfirst := hl.bounded a ha n hn
      omega
    · exact (hphases a ha n hn).2
  · rw [List.count_append]
    by_cases hf : .completion f ∈ bs
    · obtain ⟨hone, hnot⟩ := honce f hf
      rw [hone, List.count_eq_zero.mpr hnot]
    · rw [List.count_eq_zero.mpr hf]
      exact hl.once f
  · rw [List.countP_append, List.count_append]
    exact Nat.add_le_add (hl.entered f) (hentered f)

/-- A completion of a later phase has not been called yet. -/
theorem Entries.not_called {l : List Action} {reached : ℕ} {pending : List WriteRequest}
    (h : Entries l reached pending) {f : Function} {n : ℕ}
    (hn : (Action.completion f).phase = some n) (hlt : reached < n) : .completion f ∉ l := by
  intro hmem
  have hle := h.bounded _ hmem n hn
  omega

/-- A stage is left for one that issues requests of one phase. -/
theorem Logged.issue {l : List Action} {p : Rebuild} {stage : Stage} {f : Function} {loop : Loop}
    (h : Logged l p) (hp : p.stage ≠ .trapped) (hq : (p.issue stage loop).Coherent)
    (hnil : p.inFlight = []) (hbalanced : loop.Balanced)
    (henter : (Action.enter f).phase = some stage.reached)
    (hphase : ∀ r ∈ loop.requests, r.label.phase = stage.reached ∧ r.label.group = some f)
    (hle : p.stage.reached ≤ stage.reached)
    (hnew : ∀ f n, (Action.completion f).phase = some n → n ≤ stage.reached →
      .completion f ∈ l) : Logged (l ++ issues f loop) (p.issue stage loop) := by
  have hphases : ∀ r ∈ loop.requests, r.label.phase = stage.reached := fun r hr => (hphase r hr).1
  have hstage : (p.issue stage loop).stage ≠ .trapped →
      stage.reached = (p.issue stage loop).stage.reached := by
    simp only [Rebuild.issue]
    split_ifs <;> simp
  refine h.extend hp hq hstage (fun P => ?_)
    (pairwise_of_phase fun _ ha => phase_of_mem_issues henter hphases ha) hle
    (fun a ha n hn => ?_) (fun r hr _ => hphases r hr)
    (fun g hg => absurd hg (completion_not_mem_issues g f loop))
    (hbalanced.entered_issues fun r hr => .inl (hphase r hr).2) fun _ ht g n hn hle => ?_
  · rw [countP_isIssue_issues, countP_isAcknowledge_issues, hnil]
    simp [Rebuild.issue]
  · rw [phase_of_mem_issues henter hphases ha, Option.some.injEq] at hn
    subst hn
    exact ⟨hle, le_refl _⟩
  · rw [← hstage ht] at hle
    exact .inl (hnew g n hn hle)

/-- The chain ends without anything being done. -/
theorem Logged.end {l : List Action} {p : Rebuild} {stage : Stage} (h : Logged l p)
    (hp : p.stage ≠ .trapped) (hnil : p.inFlight = [])
    (hstage : stage = .returned ∨ stage = .trapped) : Logged (l ++ []) (p.goto stage) := by
  have hreached : stage.reached = 9 := by rcases hstage with rfl | rfl <;> rfl
  refine h.extend hp (h.coherent.goto hp hnil) (fun _ => rfl) (fun P => by simp [Rebuild.goto])
    List.Pairwise.nil ?_ (by simp) (by simp [Rebuild.goto, hnil]) (by simp) (by simp)
    fun hr ht => ?_
  · simp only [Rebuild.goto, hreached]
    cases p.stage <;> decide
  · rcases hstage with rfl | rfl
    · exact absurd rfl hr
    · exact absurd rfl ht

/-- A group that is empty has no request in flight that would leave it. -/
theorem Rebuild.Coherent.not_leaving {p : Rebuild} (h : p.Coherent)
    (hg : p.group.left = p.group.entered) {r : WriteRequest} (hr : r ∈ p.inFlight) :
    r.label.leaves = false := by
  have hc := h.bounded
  have hlen : (p.inFlight.filter fun r => r.label.leaves).length = 0 := by omega
  rw [List.length_eq_zero_iff, List.filter_eq_nil_iff] at hlen
  simpa using hlen r hr

theorem Logged.acknowledge {o : Outcomes} {s t : Firestore × Rebuild} {l : List Action}
    {label : Label} {r : WriteRequest} {rest : List WriteRequest} (h : Logged l s.2)
    (hco : t.2.Coherent)
    (he : extract (fun r => decide (r.label = label)) s.2.inFlight = some (r, rest))
    (hrest : t.2.inFlight = rest) (hstage : t.2.stage = s.2.stage) :
    Logged (l ++ actions o s (.acknowledge label)) t.2 := by
  by_cases hp : s.2.stage = .trapped
  · obtain ⟨reached, pending, hentries, -⟩ := h.entries
    have htrap : t.2.stage = .trapped := hstage.trans hp
    simp only [actions, hp, if_true, List.append_nil]
    exact ⟨hco, ⟨reached, pending, hentries, fun hne => absurd htrap hne⟩,
      fun _ hne => absurd htrap hne⟩
  obtain ⟨pre, post, hin, hout, hlabel, -⟩ := extract_eq_some he
  obtain rfl : r.label = label := by simpa using hlabel
  have hmem : r ∈ s.2.inFlight := by simp [hin]
  have hl := h.running hp
  simp only [actions, hp, if_false]
  refine h.extend hp hco (fun _ => rfl) (fun P => ?_) (List.pairwise_singleton _ _)
    (by rw [hstage]) (fun a ha n hn => ?_) (fun r' hr' hgroup => ?_) (by simp)
    (by simp [Action.isIssue]) fun hr ht f n hn hle => ?_
  · rw [hrest, hin, hout]
    cases hP : P r.label <;> simp [Action.isIssue, Action.isAcknowledge, hP]
    omega
  · obtain rfl := List.mem_singleton.mp ha
    simp only [Action.phase] at hn
    split_ifs at hn with hgroup
    obtain rfl := Option.some.inj hn
    rw [hl.waiting r hmem hgroup, hstage]
    exact ⟨le_refl _, le_refl _⟩
  · rw [hstage]
    refine hl.waiting r' ?_ hgroup
    rw [hrest, hout] at hr'
    rw [hin]
    rcases List.mem_append.mp hr' with hr' | hr'
    · exact List.mem_append_left _ hr'
    · exact List.mem_append_right _ (List.mem_cons_of_mem _ hr')
  · rw [hstage] at hr ht hle
    exact .inl (h.completed hr ht f n hn hle)

/-- A block calls its completion, which sends at most requests that write nothing. -/
theorem Logged.call {l next : List Action} {p : Rebuild} {stage : Stage} {f : Function} {m : ℕ}
    (h : Logged l p) (hco : (p.goto stage).Coherent)
    (hempty : p.group.left = p.group.entered) (hm : (Action.completion f).phase = some m)
    (hlt : p.stage.reached < m) (hle : m ≤ stage.reached)
    (honly : ∀ g n, (Action.completion g).phase = some n → p.stage.reached < n →
      n ≤ stage.reached → g = f)
    (hnext : ∀ a ∈ next, a = .getDocuments .cities ∨ a = .dataTask)
    (hphase : ∀ a ∈ next, a.phase = some stage.reached)
    (hrunning : p.stage ≠ .returned ∧ p.stage ≠ .trapped) :
    Logged (l ++ .completion f :: next) (p.goto stage) := by
  have hother : ∀ g, .completion g ∉ next := by
    intro g hg
    rcases hnext _ hg with hg | hg <;> cases hg
  have hissue : ∀ P, next.countP (Action.isIssue P) = 0 := by
    intro P
    rw [List.countP_eq_zero]
    intro a ha
    rcases hnext a ha with rfl | rfl <;> simp [Action.isIssue]
  have hacknowledge : ∀ P, next.countP (Action.isAcknowledge P) = 0 := by
    intro P
    rw [List.countP_eq_zero]
    intro a ha
    rcases hnext a ha with rfl | rfl <;> simp [Action.isAcknowledge]
  refine h.extend hrunning.2 hco (fun _ => rfl) (fun P => ?_) ?_ (by simp [Rebuild.goto]; omega)
    (fun a ha n hn => ?_) (fun r hr hgroup => ?_) (fun g hg => ?_) (fun g => ?_)
    fun _ _ g n hn hreached => ?_
  · rw [List.countP_cons, List.countP_cons, hissue, hacknowledge]
    simp [Rebuild.goto, Action.isIssue, Action.isAcknowledge]
  · rw [List.pairwise_cons]
    refine ⟨fun a ha i j hi hj => ?_, pairwise_of_phase hphase⟩
    rw [hm, Option.some.injEq] at hi
    rw [hphase a ha, Option.some.injEq] at hj
    omega
  · simp only [Rebuild.goto]
    rcases List.mem_cons.mp ha with rfl | ha
    · rw [hm, Option.some.injEq] at hn
      omega
    · rw [hphase a ha, Option.some.injEq] at hn
      omega
  · rw [← Label.leaves_eq, h.coherent.not_leaving hempty hr] at hgroup
    cases hgroup
  · rcases List.mem_cons.mp hg with hg | hg
    · cases hg
      refine ⟨?_, (h.running hrunning.2).not_called hm hlt⟩
      rw [List.count_cons_self, List.count_eq_zero.mpr (hother _)]
    · exact absurd hg (hother g)
  · rw [List.countP_cons, hissue]
    simp [Action.isIssue]
  · by_cases hbefore : n ≤ p.stage.reached
    · exact .inl (h.completed hrunning.1 hrunning.2 g n hn hbefore)
    · rw [honly g n hn (by omega) hreached]
      exact .inr List.mem_cons_self

/-- The block of a group runs: it calls its completion, and the next request is issued. -/
theorem Logged.notify {o : Outcomes} {s : Firestore × Rebuild} {l : List Action} {stage : Stage}
    (h : Logged l s.2) (hco : (s.2.goto stage).Coherent)
    (hg : s.2.group.left = s.2.group.entered)
    (hnext : (s.2.stage = .deletingSpots ∧ stage = .removeCities) ∨
      (s.2.stage = .deletingCities ∧ stage = .getTaiwanSpots) ∨
      (s.2.stage = .settingCities ∧ stage = .completed)) :
    Logged (l ++ actions o s .notify) (s.2.goto stage) := by
  rcases hnext with ⟨hst, rfl⟩ | ⟨hst, rfl⟩ | ⟨hst, rfl⟩
  all_goals
    simp only [actions, hst]
    refine h.call hco hg rfl (by simp [hst, Stage.reached]) (by simp [Stage.reached]) ?_
      (by simp) (by simp [Action.phase, Stage.reached]) (by simp [hst])
    rintro g n hn hlt hle
    cases g <;> cases hn <;> simp [hst, Stage.reached] at hlt hle ⊢

/-- The download is there: its completion runs and the writes are issued. -/
theorem Logged.dataTask {o : Outcomes} {s : Firestore × Rebuild} {l : List Action}
    {spots : List Spot} (h : Logged l s.2) (hst : s.2.stage = .getTaiwanSpots)
    (hd : getTaiwanSpots s.2.count o.data = .completed spots)
    (hco : (s.2.issue .settingCities (updataSpotsAPI spots)).Coherent) :
    Logged (l ++ actions o s .dataTask) (s.2.issue .settingCities (updataSpotsAPI spots)) := by
  have hp : s.2.stage ≠ .trapped := by simp [hst]
  have hnil := h.coherent.idle_between (.inr (.inr hst))
  have hcompleted := h.completed (by simp [hst]) hp
  have hphase : ∀ r ∈ (updataSpotsAPI spots).requests, r.label.phase = 8 :=
    fun r hr => (of_mem_updataSpotsAPI_requests hr).1
  have hphases : ∀ a ∈ issues .updataSpotsAPI (updataSpotsAPI spots), a.phase = some 8 :=
    fun a ha => phase_of_mem_issues rfl hphase ha
  have hnone := completion_not_mem_issues .getTaiwanSpots .updataSpotsAPI (updataSpotsAPI spots)
  have hstage : (s.2.issue .settingCities (updataSpotsAPI spots)).stage ≠ .trapped →
      8 = (s.2.issue .settingCities (updataSpotsAPI spots)).stage.reached := by
    simp only [Rebuild.issue]
    split_ifs <;> simp [Stage.reached]
  simp only [actions, hd]
  refine h.extend hp hco hstage (fun P => ?_) ?_ (by simp [hst, Stage.reached])
    (fun a ha n hn => ?_) (fun r hr _ => hphase r hr) (fun f hf => ?_) (fun f => ?_)
    fun _ ht f n hn hle => ?_
  · rw [List.countP_cons, List.countP_cons, countP_isIssue_issues, countP_isAcknowledge_issues,
      hnil]
    simp [Rebuild.issue, Action.isIssue, Action.isAcknowledge]
  · rw [List.pairwise_cons]
    refine ⟨fun a ha m n hm hn => ?_, pairwise_of_phase hphases⟩
    rw [hphases a ha] at hn
    obtain rfl := Option.some.inj hm
    obtain rfl := Option.some.inj hn
    decide
  · simp only [hst, Stage.reached]
    rcases List.mem_cons.mp ha with rfl | ha
    · obtain rfl := Option.some.inj hn
      decide
    · rw [hphases a ha] at hn
      obtain rfl := Option.some.inj hn
      decide
  · obtain rfl : f = .getTaiwanSpots := by
      rcases List.mem_cons.mp hf with hf | hf
      · exact Action.completion.inj hf
      · exact absurd hf (completion_not_mem_issues f _ _)
    refine ⟨?_, (h.running hp).not_called rfl (by simp [hst, Stage.reached])⟩
    rw [List.count_cons_self, List.count_eq_zero.mpr hnone]
  · rw [List.countP_cons, List.count_cons]
    refine Nat.add_le_add ((updataSpotsAPI_balanced spots).entered_issues
      (fun r hr => (of_mem_updataSpotsAPI_requests hr).2) f) ?_
    simp [Action.isIssue]
  · rw [← hstage ht] at hle
    cases f <;> cases hn <;> simp at hle ⊢ <;>
      exact .inl (hcompleted _ _ rfl (by simp [hst, Stage.reached]))

theorem step_logged {o : Outcomes} {s t : Firestore × Rebuild} {e : Event} {l : List Action}
    (hl : Logged l s.2) (h : step o s e = some t) : Logged (l ++ actions o s e) t.2 := by
  have hco := step_coherent hl.coherent h
  rcases step_cases h with ⟨rfl, hst, hlist, rfl⟩ | ⟨rfl, hst, hlist, rfl⟩ |
      ⟨rfl, hst, hlist, rfl⟩ | ⟨rfl, hst, hlist, rfl⟩ | ⟨rfl, hst, h⟩ |
      ⟨label, r, rest, rfl, he, rfl⟩ | ⟨rfl, hg, h⟩
  · have hnil := hl.coherent.idle_between (.inl hst)
    simp only [actions, hst, hlist, if_true]
    refine hl.issue (by simp [hst]) hco hnil (removeSpots_balanced _) rfl
      (fun r hr => of_mem_removeSpots_requests hr)
      (by simp [hst, Stage.reached]) fun f n hn hle => ?_
    cases f <;> cases hn <;> simp [Stage.reached] at hle
  · simp only [actions, hst, hlist]
    exact hl.end (by simp [hst]) (hl.coherent.idle_between (.inl hst)) (.inl rfl)
  · have hnil := hl.coherent.idle_between (.inr (.inl hst))
    simp only [actions, hst, hlist, if_true]
    refine hl.issue (by simp [hst]) hco hnil (removeCities_balanced _) rfl
      (fun r hr => of_mem_removeCities_requests hr)
      (by simp [hst, Stage.reached]) fun f n hn hle => ?_
    cases f <;> cases hn <;> simp [Stage.reached] at hle
    exact hl.completed (by simp [hst]) (by simp [hst]) _ _ rfl (by simp [hst, Stage.reached])
  · simp only [actions, hst, hlist]
    exact hl.end (by simp [hst]) (hl.coherent.idle_between (.inr (.inl hst))) (.inl rfl)
  · have hnil := hl.coherent.idle_between (.inr (.inr hst))
    rcases h with ⟨spots, hd, rfl⟩ | ⟨hd, rfl⟩ | ⟨hd, rfl⟩
    · exact hl.dataTask hst hd hco
    · simp only [actions, hd]
      exact hl.end (by simp [hst]) hnil (.inl rfl)
    · simp only [actions, hd]
      exact hl.end (by simp [hst]) hnil (.inr rfl)
  · exact hl.acknowledge hco he rfl rfl
  · rcases h with ⟨hst, rfl⟩ | ⟨hst, rfl⟩ | ⟨hst, rfl⟩
    · exact hl.notify hco hg (.inl ⟨hst, rfl⟩)
    · exact hl.notify hco hg (.inr (.inl ⟨hst, rfl⟩))
    · exact hl.notify hco hg (.inr (.inr ⟨hst, rfl⟩))

theorem run_logged {o : Outcomes} {user : User} {count : ℤ} {db : Firestore} {p : Rebuild}
    {es : List Event} {t : Firestore × Rebuild} (hp : apiButtonDidTap user count = some p)
    (hr : run (step o) (db, p) es = some t) : Logged (log o (db, p) es) t.2 := by
  have hco := apiButtonDidTap_coherent hp
  refine invariant_of_prefix (I := fun pre m => Logged (log o (db, p) pre) m.2)
    (fun pre m e m' hm hlog hstep => ?_) ?_ hr
  · rw [log_concat hm]
    exact step_logged hlog hstep
  · unfold apiButtonDidTap at hp
    split_ifs at hp
    obtain rfl := Option.some.inj hp
    refine ⟨hco, ⟨0, [], ⟨fun P => rfl, List.pairwise_singleton _ _, ?_, by simp,
      fun f => by simp [log, log.go], fun f => by simp [log, log.go, Action.isIssue]⟩,
      fun _ => ⟨rfl, rfl⟩⟩, fun _ _ f n hn hle => ?_⟩
    · rintro a ha n hn
      obtain rfl := List.mem_singleton.mp ha
      obtain rfl := Option.some.inj hn
      exact le_refl _
    · cases f <;> cases hn <;> simp [Stage.reached] at hle

theorem countP_isIssue (l : List Action) (label : Label) :
    l.countP (Action.isIssue fun x => decide (x = label)) = l.count (.issue label) := by
  rw [List.count]
  apply List.countP_congr
  intro a _
  cases a <;> simp [Action.isIssue]

theorem countP_isAcknowledge (l : List Action) (label : Label) :
    l.countP (Action.isAcknowledge fun x => decide (x = label)) =
      l.count (.acknowledge label) := by
  rw [List.count]
  apply List.countP_congr
  intro a _
  cases a <;> simp [Action.isAcknowledge]

/-- Whatever a group waits for is acknowledged before the first action of a later phase. -/
theorem Entries.acknowledged_before {l pre post : List Action} {reached : ℕ}
    {pending : List WriteRequest} {a : Action} {n : ℕ} (h : Entries l reached pending)
    (hl : l = pre ++ a :: post) (ha : a.phase = some n) {label : Label}
    (hgroup : label.group.isSome = true) (hlt : label.phase < n) :
    pre.count (.acknowledge label) = l.count (.issue label) := by
  have hbound := h.bounded a (by simp [hl]) n ha
  have hflight : (pending.countP fun r => decide (r.label = label)) = 0 := by
    rw [List.countP_eq_zero]
    intro r hr heq
    obtain rfl : r.label = label := by simpa using heq
    have hphase := h.waiting r hr hgroup
    omega
  have hnone : (a :: post).count (.acknowledge label) = 0 := by
    rw [List.count_eq_zero]
    intro hmem
    have hphase : (Action.acknowledge label).phase = some label.phase := by
      simp [Action.phase, hgroup]
    rcases List.mem_cons.mp hmem with rfl | hmem
    · rw [hphase, Option.some.injEq] at ha
      omega
    · have hsorted := h.sorted
      rw [hl, List.pairwise_append, List.pairwise_cons] at hsorted
      have hle := hsorted.2.1.1 _ hmem n label.phase ha hphase
      omega
  have hcounts := h.counts fun x => decide (x = label)
  rw [countP_isIssue, countP_isAcknowledge, hflight] at hcounts
  have hsplit : l.count (.acknowledge label) =
      pre.count (.acknowledge label) + (a :: post).count (.acknowledge label) := by
    rw [hl, List.count_append]
  omega

theorem Entries.phases {l : List Action} {reached : ℕ} {pending : List WriteRequest}
    (h : Entries l reached pending) : Phases l where
  spots_swept := by
    rintro pre a post hl (rfl | ⟨name, rfl⟩) id
    · exact h.acknowledged_before hl rfl rfl (by simp [Label.phase])
    · exact h.acknowledged_before hl rfl rfl (by simp [Label.phase])
  cities_swept := by
    rintro pre a post hl (rfl | ⟨i, rfl⟩ | ⟨c, rfl⟩) name
    · exact h.acknowledged_before hl rfl rfl (by simp [Label.phase])
    · exact h.acknowledged_before hl rfl rfl (by simp [Label.phase])
    · exact h.acknowledged_before hl rfl rfl (by simp [Label.phase])
  cities_written pre post hl c := h.acknowledged_before hl rfl rfl (by simp [Label.phase])
  once := h.once
  groups f := by
    have hcounts := h.counts fun label => decide (label.group = some f)
    have hleaves : Action.isAcknowledge (fun label => decide (label.group = some f)) =
        Action.leaves f := by
      funext a
      cases a <;> rfl
    have hentered := h.entered f
    rw [hleaves] at hcounts
    omega

/-- A rebuild to which nothing more can happen has run to its end. -/
theorem finished_of_stuck {o : Outcomes} {s : Firestore × Rebuild} (hs : s.2.Coherent)
    (h : ∀ e, step o s e = none) : s.2.Finished := by
  have hnil : s.2.inFlight = [] := by
    by_contra hne
    obtain ⟨r, rest, hin⟩ := List.exists_cons_of_ne_nil hne
    have hack := h (.acknowledge r.label)
    simp [step, acknowledge, hin, extract] at hack
  have hgroup : s.2.stage ≠ .trapped → s.2.group.left = s.2.group.entered := by
    intro hst
    simpa [hnil] using (hs.counts hst).symm
  have hget := h .getDocuments
  have hdata := h .dataTask
  have hnotify := h .notify
  refine ⟨?_, hnil⟩
  cases hst : s.2.stage with
  | removeSpots =>
    simp only [step, getDocuments, hst] at hget
    split_ifs at hget <;> cases hget
  | removeCities =>
    simp only [step, getDocuments, hst] at hget
    split_ifs at hget <;> cases hget
  | getTaiwanSpots =>
    simp only [step, dataTask, hst] at hdata
    split at hdata <;> cases hdata
  | deletingSpots => simp [step, notify, hst, hgroup] at hnotify
  | deletingCities => simp [step, notify, hst, hgroup] at hnotify
  | settingCities => simp [step, notify, hst, hgroup] at hnotify
  | completed => exact .inl rfl
  | returned => exact .inr (.inl rfl)
  | trapped => exact .inr (.inr rfl)

/-- With both listings and the download in order, and with every path leading to a document,
the chain is neither cut short nor stopped by a trap. -/
theorem run_not_cut_short {o : Outcomes} {user : User} {count : ℤ} {db : Firestore} {p : Rebuild}
    {es : List Event} {t : Firestore × Rebuild} {spots : List Spot} (hs : o.spotsListed = true)
    (hc : o.citiesListed = true) (hd : getTaiwanSpots count o.data = .completed spots)
    (hlead : (removeSpots (db.documents .spots)).trapped = false) (hids : Resolves spots)
    (hp : apiButtonDidTap user count = some p) (hr : run (step o) (db, p) es = some t) :
    t.2.stage ≠ .returned ∧ t.2.stage ≠ .trapped := by
  have hinv := invariant_of_step (I := fun m : Firestore × Rebuild =>
      Untrapped o db m ∧ m.2.count = count ∧ m.2.stage ≠ .returned ∧ m.2.stage ≠ .trapped)
    (fun m e m' hm hstep => by
      obtain ⟨huntrapped, hcount, hm⟩ := hm
      refine ⟨step_untrapped huntrapped hstep, (count_of_step hstep).trans hcount, ?_⟩
      rcases step_cases hstep with ⟨-, hst, -, rfl⟩ | ⟨-, -, hl, -⟩ | ⟨-, -, -, rfl⟩ |
          ⟨-, -, hl, -⟩ | ⟨-, -, h⟩ | ⟨label, r, rest, -, -, rfl⟩ | ⟨-, -, h⟩
      · simp [Rebuild.issue, (huntrapped.start hst).2, hlead]
      · simp [hs] at hl
      · simp [Rebuild.issue, removeCities_trapped]
      · simp [hc] at hl
      · rw [hcount, hd] at h
        rcases h with ⟨spots', hspots, rfl⟩ | ⟨hno, -⟩ | ⟨hno, -⟩
        · obtain rfl := Import.completed.inj hspots
          simp [Rebuild.issue, updataSpotsAPI_trapped.mpr hids]
        · cases hno
        · cases hno
      · exact hm
      · rcases h with ⟨-, rfl⟩ | ⟨-, rfl⟩ | ⟨-, rfl⟩ <;> simp [Rebuild.goto])
    (by
      unfold apiButtonDidTap at hp
      split_ifs at hp
      obtain rfl := Option.some.inj hp
      exact ⟨⟨fun _ => ⟨rfl, rfl⟩, .inl rfl, by simp⟩, rfl, by simp⟩) hr
  exact hinv.2.2

/-- The phases of a single rebuild never overlap, no group is left too often, and a
rebuild with nothing left to happen has called every completion if both listings
succeed, the first `count` entries of the download decode and no path raises. -/
theorem rebuild_phases {o : Outcomes} {user : User} {count : ℤ} {db : Firestore} {p : Rebuild}
    {es : List Event} {t : Firestore × Rebuild} (hp : apiButtonDidTap user count = some p)
    (hr : run (step o) (db, p) es = some t) :
    Phases (log o (db, p) es) ∧ t.2.group.left ≤ t.2.group.entered ∧
      ∀ entries spots, o.spotsListed = true → o.citiesListed = true →
        info o.data = some entries → 1 ≤ count → count ≤ entries.length →
        (entries.take count.toNat).mapM Spot.initDictionary = some spots →
        (∀ snapshot ∈ db.documents .spots, leads snapshot = true) → Resolves spots →
        (∀ e, step o t e = none) → ∀ f, (log o (db, p) es).count (.completion f) = 1 := by
  have hlog := run_logged hp hr
  obtain ⟨reached, pending, hentries, -⟩ := hlog.entries
  refine ⟨hentries.phases, ?_, ?_⟩
  · have hbounded := hlog.coherent.bounded
    omega
  · intro entries spots hs hc hinfo h1 hn hdecode hlead hids hstuck f
    have hd := getTaiwanSpots_of_take hinfo h1 hn hdecode
    obtain ⟨hret, htrap⟩ := run_not_cut_short hs hc hd (removeSpots_of_leads hlead) hids hp hr
    have hstage : t.2.stage = .completed := by
      obtain ⟨hst | hst | hst, -⟩ := finished_of_stuck hlog.coherent hstuck
      · exact hst
      · exact absurd hst hret
      · exact absurd hst htrap
    have hmem : .completion f ∈ log o (db, p) es := by
      cases f <;> exact hlog.completed hret htrap _ _ rfl (by simp [hstage, Stage.reached])
    have hone := hentries.once f
    have hpos := List.count_pos_iff.mpr hmem
    omega

/-- Two spots are downloaded, and everything succeeds. -/
def sampleDownload : Outcomes :=
  ⟨true, true, sampleFeed [sampleEntry "b" "臺南市", sampleEntry "c" "臺東縣"], fun _ => false⟩

/-- They replace another one. -/
def samplePhases : List Event :=
  [.getDocuments, .acknowledge (.deleteSpot "a"), .notify, .getDocuments,
    .acknowledge (.deleteCity "臺東縣"), .notify, .dataTask, .acknowledge (.setCity .TNH),
    .acknowledge (.setSpot 1), .acknowledge (.setCity .TTH), .notify, .acknowledge (.setSpot 0)]

/-- The rebuild before its first event. -/
def samplePhasesStart : Firestore × Rebuild :=
  (sampleDatabase "a" "臺東縣", ⟨2, .removeSpots, ⟨0, 0⟩, []⟩)

theorem rebuild_phases_sample :
    ∃ t, run (step sampleDownload) samplePhasesStart samplePhases = some t ∧ t.2.Finished ∧
      Phases (log sampleDownload samplePhasesStart samplePhases) ∧
      ∀ f, (log sampleDownload samplePhasesStart samplePhases).count (.completion f) = 1 := by
  have h := @rebuild_phases sampleDownload sampleAdmin 2 (sampleDatabase "a" "臺東縣") _
    samplePhases _ rfl rfl
  refine ⟨_, rfl, ⟨.inl rfl, rfl⟩, h.1, h.2.2 _ _ rfl rfl rfl (by decide) (by decide) rfl
    (by decide) (by decide) ?_⟩
  intro e
  cases e <;> rfl

/-- The path of an empty id raises: that of an entry before the group of `updataSpotsAPI` is
waited for, that of a document before the one of `removeSpots` is. -/
theorem empty_id_not_completed :
    (∃ p t, let o : Outcomes := ⟨true, true, sampleFeed [sampleEntry "" "臺東縣"], fun _ => false⟩
      info o.data = some [sampleEntry "" "臺東縣"] ∧
      ([sampleEntry "" "臺東縣"].take (1 : ℤ).toNat).mapM Spot.initDictionary =
        some [sampleSpot "" (some "臺東縣")] ∧
      apiButtonDidTap sampleAdmin 1 = some p ∧
      run (step o) (∅, p) [.getDocuments, .notify, .getDocuments, .notify, .dataTask] = some t ∧
      (∀ e, step o t e = none) ∧
      (log o (∅, p) [.getDocuments, .notify, .getDocuments, .notify, .dataTask]).count
        (.completion .updataSpotsAPI) = 0) ∧
    ∃ p t, let o : Outcomes := ⟨true, true, sampleFeed [sampleEntry "a" "臺東縣"], fun _ => false⟩
      info o.data = some [sampleEntry "a" "臺東縣"] ∧
      ([sampleEntry "a" "臺東縣"].take (1 : ℤ).toNat).mapM Spot.initDictionary =
        some [sampleSpot "a" (some "臺東縣")] ∧
      apiButtonDidTap sampleAdmin 1 = some p ∧
      run (step o) (sampleNameless, p) [.getDocuments] = some t ∧ (∀ e, step o t e = none) ∧
      (log o (sampleNameless, p) [.getDocuments]).count (.completion .removeSpots) = 0 := by
  refine ⟨⟨_, _, rfl, rfl, rfl, rfl, fun e => ?_, rfl⟩, _, _, rfl, rfl, rfl, rfl, fun e => ?_, rfl⟩
  · cases e <;> rfl
  · cases e <;> rfl

end TaiwanSpots
