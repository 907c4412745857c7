import TaiwanSpots.Runs

/-!
# Two groups of processes over one store

The processes of each group work on a view of the store: what they do depends on the
view only. When one group leaves the view of the other alone, its events can be taken
out of a run; when this holds both ways, a run of both groups is a run of the one and a
run of the other, in any interleaving.
-/
namespace Runs

/-- The processes depend on the store through the view. -/
def WorksOn {σ τ ι π ε : Type*} (view : σ → τ) (f : ι → σ → π → ε → Option (σ × π)) : Prop :=
  ∀ i s s' p e t, view s = view s' → f i s p e = some t →
    ∃ u, f i s' p e = some (u, t.2) ∧ view u = view t.1

/-- Processes that are in good order never change the view, and stay in good order. -/
def LeavesAlone {σ τ ι π ε : Type*} (view : σ → τ) (ok : π → Prop)
    (f : ι → σ → π → ε → Option (σ × π)) : Prop :=
  ∀ i s p e t, ok p → f i s p e = some t → view t.1 = view s ∧ ok t.2

/-- A store and the local states of two groups of processes. -/
structure Groups (σ ι π κ ρ : Type*) where
  store : σ
  first : ι → π
  second : κ → ρ

/-- One process of either group takes one step on the shared store. -/
def beside {σ ι π ε κ ρ δ : Type*} [DecidableEq ι] [DecidableEq κ]
    (f : ι → σ → π → ε → Option (σ × π)) (g : κ → σ → ρ → δ → Option (σ × ρ))
    (s : Groups σ ι π κ ρ) : (ι × ε) ⊕ (κ × δ) → Option (Groups σ ι π κ ρ)
  | .inl e => (interleave f ⟨s.store, s.first⟩ e).map fun t => ⟨t.store, t.process, s.second⟩
  | .inr d => (interleave g ⟨s.store, s.second⟩ d).map fun t => ⟨t.store, s.first, t.process⟩

section
variable {σ τ τ' ι π ε κ ρ δ : Type*} [DecidableEq ι] [DecidableEq κ]
  {f : ι → σ → π → ε → Option (σ × π)} {g : κ → σ → ρ → δ → Option (σ × ρ)}
  {v : σ → τ} {w : σ → τ'} {ok : π → Prop} {ok' : ρ → Prop} {s t : Groups σ ι π κ ρ}
  {es : List ((ι × ε) ⊕ (κ × δ))}

theorem beside_inl {e : ι × ε} : beside f g s (.inl e) = some t ↔
    interleave f ⟨s.store, s.first⟩ e = some ⟨t.store, t.first⟩ ∧ t.second = s.second := by
  simp only [beside, Option.map_eq_some_iff]
  constructor
  · rintro ⟨m, hm, rfl⟩
    exact ⟨hm, rfl⟩
  · rintro ⟨hm, hsecond⟩
    exact ⟨_, hm, by rw [← hsecond]⟩

theorem beside_inr {d : κ × δ} : beside f g s (.inr d) = some t ↔
    interleave g ⟨s.store, s.second⟩ d = some ⟨t.store, t.second⟩ ∧ t.first = s.first := by
  simp only [beside, Option.map_eq_some_iff]
  constructor
  · rintro ⟨m, hm, rfl⟩
    exact ⟨hm, rfl⟩
  · rintro ⟨hm, hfirst⟩
    exact ⟨_, hm, by rw [← hfirst]⟩

/-- The store and every process are in order. -/
structure Groups.Sound (I : σ → Prop) (J : ι → π → Prop) (K : κ → ρ → Prop)
    (s : Groups σ ι π κ ρ) : Prop where
  store : I s.store
  first : ∀ i, J i (s.first i)
  second : ∀ k, K k (s.second k)

/-- What every process keeps for itself and for the store holds throughout. -/
theorem sound_of_run {I : σ → Prop} {J : ι → π → Prop} {K : κ → ρ → Prop}
    (hf : ∀ i store p e t, I store → J i p → f i store p e = some t → I t.1 ∧ J i t.2)
    (hg : ∀ k store q d t, I store → K k q → g k store q d = some t → I t.1 ∧ K k t.2)
    (hs : s.Sound I J K) (hr : run (beside f g) s es = some t) : t.Sound I J K := by
  refine invariant_of_step (fun m e m' hm h => ?_) hs hr
  cases e with
  | inl e =>
    obtain ⟨hstep, hsecond⟩ := beside_inl.mp h
    obtain ⟨store, p, hp, heq⟩ := interleave_eq_some.mp hstep
    obtain ⟨hstore, hfirst⟩ := Shared.mk.inj heq
    obtain ⟨hI, hJ⟩ := hf _ _ _ _ _ hm.store (hm.first e.1) hp
    refine ⟨hstore ▸ hI, ?_, hsecond ▸ hm.second⟩
    rw [hfirst]
    exact (Function.forall_update_iff _ J).mpr ⟨hJ, fun i _ => hm.first i⟩
  | inr d =>
    obtain ⟨hstep, hfirst⟩ := beside_inr.mp h
    obtain ⟨store, q, hq, heq⟩ := interleave_eq_some.mp hstep
    obtain ⟨hstore, hsecond⟩ := Shared.mk.inj heq
    obtain ⟨hI, hK⟩ := hg _ _ _ _ _ hm.store (hm.second d.1) hq
    refine ⟨hstore ▸ hI, hfirst ▸ hm.first, ?_⟩
    rw [hsecond]
    exact (Function.forall_update_iff _ K).mpr ⟨hK, fun k _ => hm.second k⟩

theorem WorksOn.interleave (hf : WorksOn v f) {a b : Shared σ ι π} {e : ι × ε} {s' : σ}
    (hv : v a.store = v s') (h : interleave f a e = some b) :
    ∃ u, interleave f ⟨s', a.process⟩ e = some ⟨u, b.process⟩ ∧ v u = v b.store := by
  obtain ⟨store, p, hstep, rfl⟩ := interleave_eq_some.mp h
  obtain ⟨u, hu, hview⟩ := hf _ _ _ _ _ _ hv hstep
  exact ⟨u, interleave_eq_some.mpr ⟨u, p, hu, rfl⟩, hview⟩

theorem LeavesAlone.interleave (hf : LeavesAlone w ok f) {a b : Shared σ ι π} {e : ι × ε}
    (ha : ∀ i, ok (a.process i)) (h : interleave f a e = some b) :
    w b.store = w a.store ∧ ∀ i, ok (b.process i) := by
  obtain ⟨store, p, hstep, rfl⟩ := interleave_eq_some.mp h
  obtain ⟨hview, hok⟩ := hf _ _ _ _ _ (ha e.1) hstep
  refine ⟨hview, fun i => ?_⟩
  by_cases hi : i = e.1
  · subst hi
    simpa using hok
  · simpa [hi] using ha i

/-- Processes that leave the view of the first group alone can be taken out of a run. -/
theorem run_first (hf : WorksOn v f) (hg : LeavesAlone v ok' g) (hok : ∀ k, ok' (s.second k))
    {s' : σ} (hv : v s.store = v s') (hr : run (beside f g) s es = some t) :
    ∃ u, run (interleave f) ⟨s', s.first⟩ (es.filterMap Sum.getLeft?) = some ⟨u, t.first⟩ ∧
      v u = v t.store := by
  induction es generalizing s s' with
  | nil =>
    obtain rfl := Option.some.inj hr
    exact ⟨s', rfl, hv.symm⟩
  | cons e es ih =>
    obtain ⟨m, hm, hrest⟩ := run_cons.mp hr
    cases e with
    | inl e =>
      obtain ⟨hstep, hsecond⟩ := beside_inl.mp hm
      obtain ⟨u, hu, hview⟩ := hf.interleave hv hstep
      obtain ⟨x, hx, hxview⟩ := ih (hsecond ▸ hok) hview.symm hrest
      exact ⟨x, run_cons.mpr ⟨_, hu, hx⟩, hxview⟩
    | inr d =>
      obtain ⟨hstep, hfirst⟩ := beside_inr.mp hm
      obtain ⟨hsame, hok⟩ := hg.interleave hok hstep
      obtain ⟨x, hx, hxview⟩ := ih hok (hsame.trans hv) hrest
      rw [hfirst] at hx
      exact ⟨x, hx, hxview⟩

theorem run_second (hg : WorksOn w g) (hf : LeavesAlone w ok f) (hok : ∀ i, ok (s.first i))
    {s' : σ} (hw : w s.store = w s') (hr : run (beside f g) s es = some t) :
    ∃ u, run (interleave g) ⟨s', s.second⟩ (es.filterMap Sum.getRight?) = some ⟨u, t.second⟩ ∧
      w u = w t.store := by
  induction es generalizing s s' with
  | nil =>
    obtain rfl := Option.some.inj hr
    exact ⟨s', rfl, hw.symm⟩
  | cons e es ih =>
    obtain ⟨m, hm, hrest⟩ := run_cons.mp hr
    cases e with
    | inl e =>
      obtain ⟨hstep, hsecond⟩ := beside_inl.mp hm
      obtain ⟨hsame, hok⟩ := hf.interleave hok hstep
      obtain ⟨x, hx, hxview⟩ := ih hok (hsame.trans hw) hrest
      rw [hsecond] at hx
      exact ⟨x, hx, hxview⟩
    | inr d =>
      obtain ⟨hstep, hfirst⟩ := beside_inr.mp hm
      obtain ⟨u, hu, hview⟩ := hg.interleave hw hstep
      obtain ⟨x, hx, hxview⟩ := ih (hfirst ▸ hok) hview.symm hrest
      exact ⟨x, run_cons.mpr ⟨_, hu, hx⟩, hxview⟩

/-- A run of the one group and a run of the other can be interleaved in every way. -/
theorem run_beside (hf : WorksOn v f) (hfw : LeavesAlone w ok f) (hg : WorksOn w g)
    (hgv : LeavesAlone v ok' g) (hfirst : ∀ i, ok (s.first i)) (hsecond : ∀ k, ok' (s.second k))
    {a : Shared σ ι π} {b : Shared σ κ ρ} {x y : σ}
    (hv : v x = v s.store) (hw : w y = w s.store)
    (ha : run (interleave f) ⟨x, s.first⟩ (es.filterMap Sum.getLeft?) = some a)
    (hb : run (interleave g) ⟨y, s.second⟩ (es.filterMap Sum.getRight?) = some b) :
    ∃ u, run (beside f g) s es = some ⟨u, a.process, b.process⟩ ∧
      v u = v a.store ∧ w u = w b.store := by
  induction es generalizing s x y with
  | nil =>
    obtain rfl := Option.some.inj ha
    obtain rfl := Option.some.inj hb
    exact ⟨s.store, rfl, hv.symm, hw.symm⟩
  | cons e es ih =>
    cases e with
    | inl e =>
      obtain ⟨m, hm, ha⟩ := run_cons.mp ha
      obtain ⟨u, hu, hview⟩ := hf.interleave hv hm
      have hstep : beside f g s (.inl e) = some ⟨u, m.process, s.second⟩ :=
        beside_inl.mpr ⟨hu, rfl⟩
      obtain ⟨hsame, hnext⟩ := hfw.interleave hfirst hu
      obtain ⟨z, hz, hzv, hzw⟩ := ih (s := ⟨u, m.process, s.second⟩) hnext hsecond hview.symm
        (hw.trans hsame.symm) ha hb
      exact ⟨z, run_cons.mpr ⟨_, hstep, hz⟩, hzv, hzw⟩
    | inr d =>
      obtain ⟨m, hm, hb⟩ := run_cons.mp hb
      obtain ⟨u, hu, hview⟩ := hg.interleave hw hm
      have hstep : beside f g s (.inr d) = some ⟨u, s.first, m.process⟩ :=
        beside_inr.mpr ⟨hu, rfl⟩
      obtain ⟨hsame, hnext⟩ := hgv.interleave hsecond hu
      obtain ⟨z, hz, hzv, hzw⟩ := ih (s := ⟨u, s.first, m.process⟩) hfirst hnext
        (hv.trans hsame.symm) hview.symm ha hb
      exact ⟨z, run_cons.mpr ⟨_, hstep, hz⟩, hzv, hzw⟩

end

end Runs
