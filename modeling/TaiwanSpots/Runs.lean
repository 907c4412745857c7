import Mathlib.Data.List.Induction
import Mathlib.Data.List.ReduceOption
import Mathlib.Logic.Function.Basic

/-!
# Runs of a partial step function

A component is a step function on states and events, `none` where the event is
not enabled. A run is a list of events. A guard restricts the events of a run
by the state each one meets; every invariant of guarded runs is derived from
one step. Operations in flight stand in a list and move on at their own index;
the last definitions interleave whole processes over a shared store.
-/
namespace Runs

/-- Execute the events in order; `none` when one of them is not enabled. -/
def run {σ ε : Type*} (step : σ → ε → Option σ) : σ → List ε → Option σ
  | s, [] => some s
  | s, e :: es => (step s e).bind fun s' => run step s' es

@[simp] theorem run_nil {σ ε : Type*} (step : σ → ε → Option σ) (s : σ) :
    run step s [] = some s := rfl

theorem run_cons {σ ε : Type*} {step : σ → ε → Option σ} {s t : σ} {e : ε} {es : List ε} :
    run step s (e :: es) = some t ↔ ∃ m, step s e = some m ∧ run step m es = some t := by
  simp only [run, Option.bind_eq_some_iff]

theorem run_append {σ ε : Type*} (step : σ → ε → Option σ) (s : σ) (es fs : List ε) :
    run step s (es ++ fs) = (run step s es).bind fun m => run step m fs := by
  induction es generalizing s with
  | nil => rfl
  | cons e es ih => simp only [List.cons_append, run, ih, Option.bind_assoc]

theorem run_concat {σ ε : Type*} {step : σ → ε → Option σ} {s t : σ} {es : List ε} {e : ε} :
    run step s (es ++ [e]) = some t ↔ ∃ m, run step s es = some m ∧ step m e = some t := by
  simp only [run_append, Option.bind_eq_some_iff, run_cons, run_nil, Option.some.injEq]
  constructor
  · rintro ⟨m, hm, _, he, rfl⟩
    exact ⟨m, hm, he⟩
  · rintro ⟨m, hm, he⟩
    exact ⟨m, hm, t, he, rfl⟩

/-- Every event of the list meets its guard in the state it finds. -/
def Along {σ ε : Type*} (step : σ → ε → Option σ) (guard : σ → ε → Prop) : σ → List ε → Prop
  | _, [] => True
  | s, e :: es => guard s e ∧ ∀ m, step s e = some m → Along step guard m es

@[simp] theorem along_nil {σ ε : Type*} (step : σ → ε → Option σ) (guard : σ → ε → Prop) (s : σ) :
    Along step guard s [] := trivial

theorem along_cons {σ ε : Type*} {step : σ → ε → Option σ} {guard : σ → ε → Prop}
    {s : σ} {e : ε} {es : List ε} :
    Along step guard s (e :: es) ↔
      guard s e ∧ ∀ m, step s e = some m → Along step guard m es := Iff.rfl

/-- Events that a guard never stops. -/
theorem along_of_free {σ ε : Type*} {step : σ → ε → Option σ} {guard : σ → ε → Prop} {s : σ}
    {es : List ε} (h : ∀ e ∈ es, ∀ s, guard s e) : Along step guard s es := by
  induction es generalizing s with
  | nil => trivial
  | cons e es ih => exact ⟨h e (by simp) s, fun m _ => ih fun e' he' => h e' (by simp [he'])⟩

theorem along_of_forall {σ ε : Type*} {step : σ → ε → Option σ} {P : ε → Prop} {s : σ}
    {es : List ε} (h : ∀ e ∈ es, P e) : Along step (fun _ e => P e) s es :=
  along_of_free fun e he _ => h e he

/-- Without a guard every run is guarded. -/
theorem along_true {σ ε : Type*} {step : σ → ε → Option σ} {s : σ} {es : List ε} :
    Along step (fun _ _ => True) s es := along_of_forall (P := fun _ => True) fun _ _ => trivial

theorem along_step {σ ε : Type*} {step : σ → ε → Option σ} {guard : σ → ε → Prop}
    {s m : σ} {e : ε} {es : List ε} (hg : guard s e) (h : step s e = some m)
    (ht : Along step guard m es) : Along step guard s (e :: es) :=
  ⟨hg, fun _ hm => Option.some.inj (h.symm.trans hm) ▸ ht⟩

theorem along_append {σ ε : Type*} {step : σ → ε → Option σ} {guard : σ → ε → Prop}
    {s : σ} {es fs : List ε} :
    Along step guard s (es ++ fs) ↔
      Along step guard s es ∧ ∀ m, run step s es = some m → Along step guard m fs := by
  induction es generalizing s with
  | nil => simp
  | cons e es ih =>
    simp only [List.cons_append, along_cons, ih, run_cons]
    constructor
    · intro h
      refine ⟨⟨h.1, fun m hm => (h.2 m hm).1⟩, ?_⟩
      rintro t ⟨m, hm, ht⟩
      exact (h.2 m hm).2 t ht
    · intro h
      exact ⟨h.1.1, fun m hm => ⟨h.1.2 m hm, fun t ht => h.2 t ⟨m, hm, ht⟩⟩⟩

theorem along_concat {σ ε : Type*} {step : σ → ε → Option σ} {guard : σ → ε → Prop}
    {s : σ} {es : List ε} {e : ε} :
    Along step guard s (es ++ [e]) ↔
      Along step guard s es ∧ ∀ m, run step s es = some m → guard m e := by
  simp [along_append, along_cons]

theorem along_and {σ ε : Type*} {step : σ → ε → Option σ} {guard guard' : σ → ε → Prop}
    {s : σ} {es : List ε} :
    Along step (fun s e => guard s e ∧ guard' s e) s es ↔
      Along step guard s es ∧ Along step guard' s es := by
  induction es generalizing s with
  | nil => simp
  | cons e es ih =>
    simp only [along_cons, ih]
    constructor
    · rintro ⟨⟨h, h'⟩, ht⟩
      exact ⟨⟨h, fun m hm => (ht m hm).1⟩, h', fun m hm => (ht m hm).2⟩
    · rintro ⟨⟨h, ht⟩, h', ht'⟩
      exact ⟨⟨h, h'⟩, fun m hm => ⟨ht m hm, ht' m hm⟩⟩

/-- What every guarded step preserves, every guarded run preserves. -/
theorem invariant {σ ε : Type*} {step : σ → ε → Option σ} {guard : σ → ε → Prop} {I : σ → Prop}
    (hstep : ∀ s e m, I s → guard s e → step s e = some m → I m)
    {s t : σ} {es : List ε} (h0 : I s) (hg : Along step guard s es)
    (hr : run step s es = some t) : I t := by
  induction es generalizing s with
  | nil => rw [run_nil, Option.some.injEq] at hr; exact hr ▸ h0
  | cons e es ih =>
    obtain ⟨m, hm, hr⟩ := run_cons.mp hr
    exact ih (hstep s e m h0 hg.1 hm) (hg.2 m hm) hr

/-- What the invariant gives for every guarded event holds all along a guarded run. -/
theorem along_of_invariant {σ ε : Type*} {step : σ → ε → Option σ} {guard Q : σ → ε → Prop}
    {I : σ → Prop} (hQ : ∀ s e, I s → guard s e → Q s e)
    (hstep : ∀ s e m, I s → guard s e → step s e = some m → I m)
    {s : σ} {es : List ε} (h0 : I s) (hg : Along step guard s es) : Along step Q s es := by
  induction es generalizing s with
  | nil => trivial
  | cons e es ih =>
    exact ⟨hQ s e h0 hg.1, fun m hm => ih (hstep s e m h0 hg.1 hm) (hg.2 m hm)⟩

/-- The unguarded rule. -/
theorem invariant_of_step {σ ε : Type*} {step : σ → ε → Option σ} {I : σ → Prop}
    (hstep : ∀ s e m, I s → step s e = some m → I m)
    {s t : σ} {es : List ε} (h0 : I s) (hr : run step s es = some t) : I t := by
  induction es generalizing s with
  | nil => rw [run_nil, Option.some.injEq] at hr; exact hr ▸ h0
  | cons e es ih =>
    obtain ⟨m, hm, hr⟩ := run_cons.mp hr
    exact ih (hstep s e m h0 hm) hr

/-- Under an invariant, what every event makes smaller bounds the length of a run. -/
theorem length_add_le {σ ε : Type*} {step : σ → ε → Option σ} {I : σ → Prop} {size : σ → ℕ}
    (hstep : ∀ s e m, I s → step s e = some m → I m ∧ size m < size s)
    {s t : σ} {es : List ε} (h0 : I s) (hr : run step s es = some t) :
    es.length + size t ≤ size s := by
  induction es generalizing s with
  | nil =>
    obtain rfl := Option.some.inj hr
    simp
  | cons e es ih =>
    obtain ⟨m, hm, hr⟩ := run_cons.mp hr
    obtain ⟨hmI, hlt⟩ := hstep s e m h0 hm
    have hrest := ih hmI hr
    rw [List.length_cons]
    omega

/-- The rule for what relates a state to the events that have led to it. -/
theorem invariant_of_prefix {σ ε : Type*} {step : σ → ε → Option σ} {I : List ε → σ → Prop}
    {s t : σ} {es : List ε} (hstep : ∀ pre m e m', run step s pre = some m → I pre m →
      step m e = some m' → I (pre ++ [e]) m')
    (h0 : I [] s) (hr : run step s es = some t) : I es t := by
  induction es using List.reverseRecOn generalizing t with
  | nil => rw [run_nil, Option.some.injEq] at hr; exact hr ▸ h0
  | append_singleton es e ih =>
    obtain ⟨m, hm, he⟩ := run_concat.mp hr
    exact hstep es m e t hm (ih hm) he

/-- The state property holds initially and after every executed event. -/
def Always {σ ε : Type*} (step : σ → ε → Option σ) (P : σ → Prop) : σ → List ε → Prop
  | s, [] => P s
  | s, e :: es => P s ∧ ∀ m, step s e = some m → Always step P m es

theorem Always.head {σ ε : Type*} {step : σ → ε → Option σ} {P : σ → Prop} {s : σ} {es : List ε}
    (h : Always step P s es) : P s := by
  cases es with
  | nil => exact h
  | cons e es => exact h.1

theorem Always.last {σ ε : Type*} {step : σ → ε → Option σ} {P : σ → Prop} {s t : σ} {es : List ε}
    (h : Always step P s es) (hr : run step s es = some t) : P t := by
  induction es generalizing s with
  | nil => exact Option.some.inj hr ▸ h
  | cons e es ih =>
    obtain ⟨m, hm, hr⟩ := run_cons.mp hr
    exact ih (h.2 m hm) hr

/-- What an invariant of guarded runs gives holds in every state of one. -/
theorem always_of_invariant {σ ε : Type*} {step : σ → ε → Option σ} {guard : σ → ε → Prop}
    {I P : σ → Prop} (hP : ∀ s, I s → P s)
    (hstep : ∀ s e m, I s → guard s e → step s e = some m → I m)
    {s : σ} {es : List ε} (h0 : I s) (hg : Along step guard s es) : Always step P s es := by
  induction es generalizing s with
  | nil => exact hP s h0
  | cons e es ih =>
    exact ⟨hP s h0, fun m hm => ih (hstep s e m h0 hg.1 hm) (hg.2 m hm)⟩

/-- A guard that decides, step by step, whether the property survives, decides
whether it holds all along a run of events in `E`. `J` is what is known as long as it
has survived. -/
theorem always_iff_along_of_steps {σ ε : Type*} {step : σ → ε → Option σ} {guard : σ → ε → Prop}
    {J P : σ → Prop} {E : ε → Prop} (hP : ∀ s, J s → P s)
    (hguard : ∀ s e m, J s → E e → step s e = some m → P m → guard s e)
    (hstep : ∀ s e m, J s → E e → step s e = some m → guard s e → J m)
    {s t : σ} {es : List ε} (hok : ∀ e ∈ es, E e) (h0 : J s) (hr : run step s es = some t) :
    Always step P s es ↔ Along step guard s es := by
  induction es generalizing s with
  | nil => simp [Always, hP s h0]
  | cons e es ih =>
    obtain ⟨he, hes⟩ := List.forall_mem_cons.mp hok
    obtain ⟨m, hm, hr⟩ := run_cons.mp hr
    have honly : ∀ m', step s e = some m' → m' = m :=
      fun m' hm' => Option.some.inj (hm'.symm.trans hm)
    constructor
    · intro h
      have ht := h.2 m hm
      have hg := hguard s e m h0 he hm ht.head
      refine ⟨hg, fun m' hm' => ?_⟩
      obtain rfl := honly m' hm'
      exact (ih hes (hstep s e m' h0 he hm hg) hr).mp ht
    · intro h
      refine ⟨hP s h0, fun m' hm' => ?_⟩
      obtain rfl := honly m' hm'
      exact (ih hes (hstep s e m' h0 he hm h.1) hr).mpr (h.2 m' hm)

theorem always_iff_along {σ ε : Type*} {step : σ → ε → Option σ} {guard : σ → ε → Prop}
    {I P : σ → Prop} (hI : ∀ s e m, I s → step s e = some m → I m)
    (hstep : ∀ s e m, I s → P s → step s e = some m → (P m ↔ guard s e))
    {s t : σ} {es : List ε} (hs : I s) (h0 : P s) (hr : run step s es = some t) :
    Always step P s es ↔ Along step guard s es :=
  always_iff_along_of_steps (J := fun s => I s ∧ P s) (E := fun _ => True) (fun _ hJ => hJ.2)
    (fun s e m hJ _ hm hPm => (hstep s e m hJ.1 hJ.2 hm).mp hPm)
    (fun s e m hJ _ hm hg => ⟨hI s e m hJ.1 hm, (hstep s e m hJ.1 hJ.2 hm).mpr hg⟩)
    (fun _ _ => trivial) ⟨hs, h0⟩ hr

/-- What an observer has noted by the end of the run. -/
def noted {σ ε γ : Type*} (step : σ → ε → Option σ) (note : σ → ε → γ → γ) :
    σ → γ → List ε → γ
  | _, g, [] => g
  | s, g, e :: es =>
    match step s e with
    | some m => noted step note m (note s e g) es
    | none => g

theorem noted_cons {σ ε γ : Type*} {step : σ → ε → Option σ} {note : σ → ε → γ → γ} {s m : σ}
    {g : γ} {e : ε} {es : List ε} (h : step s e = some m) :
    noted step note s g (e :: es) = noted step note m (note s e g) es := by
  simp only [noted, h]

theorem noted_concat {σ ε γ : Type*} {step : σ → ε → Option σ} {note : σ → ε → γ → γ}
    {s m m' : σ} {g : γ} {es : List ε} {e : ε} (hm : run step s es = some m)
    (he : step m e = some m') :
    noted step note s g (es ++ [e]) = note m e (noted step note s g es) := by
  induction es generalizing s g with
  | nil =>
    obtain rfl := Option.some.inj hm
    exact noted_cons he
  | cons e' es ih =>
    obtain ⟨n, hn, hrest⟩ := run_cons.mp hm
    rw [List.cons_append, noted_cons hn, noted_cons hn, ih hrest]

/-- The component together with an observer of it. -/
def watched {σ ε γ : Type*} (step : σ → ε → Option σ) (note : σ → ε → γ → γ) (s : σ × γ) (e : ε) :
    Option (σ × γ) :=
  (step s.1 e).map fun m => (m, note s.1 e s.2)

theorem watched_eq_some {σ ε γ : Type*} {step : σ → ε → Option σ} {note : σ → ε → γ → γ}
    {s t : σ × γ} {e : ε} :
    watched step note s e = some t ↔ step s.1 e = some t.1 ∧ t.2 = note s.1 e s.2 := by
  simp only [watched, Option.map_eq_some_iff]
  constructor
  · rintro ⟨m, hm, rfl⟩
    exact ⟨hm, rfl⟩
  · rintro ⟨hm, hnote⟩
    exact ⟨t.1, hm, by rw [← hnote]⟩

theorem run_watched {σ ε γ : Type*} (step : σ → ε → Option σ) (note : σ → ε → γ → γ) (s : σ)
    (g : γ) (es : List ε) :
    run (watched step note) (s, g) es =
      (run step s es).map fun t => (t, noted step note s g es) := by
  induction es generalizing s g with
  | nil => rfl
  | cons e es ih =>
    cases hm : step s e with
    | none => simp only [run, watched, hm, Option.map_none, Option.bind_none]
    | some m =>
      simp only [run, watched, hm, Option.map_some, Option.bind_some, noted_cons hm]
      exact ih m (note s e g)

/-- An observer does not interfere. -/
theorem always_watched {σ ε γ : Type*} {step : σ → ε → Option σ} {note : σ → ε → γ → γ}
    {P : σ → Prop} {s : σ} {g : γ} {es : List ε} :
    Always (watched step note) (fun s => P s.1) (s, g) es ↔ Always step P s es := by
  induction es generalizing s g with
  | nil => exact Iff.rfl
  | cons e es ih =>
    refine and_congr_right fun _ => ?_
    constructor
    · intro h m hm
      exact ih.mp (h (m, note s e g) (watched_eq_some.mpr ⟨hm, rfl⟩))
    · rintro h ⟨m, g'⟩ hm
      exact ih.mpr (h m (watched_eq_some.mp hm).1)

/-- What events without effect do not change, only the others decide. -/
theorem foldl_filter_of_fixed {α ε : Type*} {f : α → ε → α} {p : ε → Bool}
    (h : ∀ a e, p e = false → f a e = a) (a : α) (es : List ε) :
    (es.filter p).foldl f a = es.foldl f a := by
  induction es generalizing a with
  | nil => rfl
  | cons e es ih =>
    cases he : p e with
    | true => simp only [List.filter_cons, he, if_true, List.foldl_cons, ih]
    | false =>
      simp only [List.filter_cons, he, Bool.false_eq_true, if_false, List.foldl_cons, ih, h]

/-- The lists are the same but for events of a kind. -/
inductive SameBut {ε : Type*} (hidden : ε → Prop) : List ε → List ε → Prop where
  | nil : SameBut hidden [] []
  | cons (e : ε) {es es' : List ε} (h : SameBut hidden es es') :
      SameBut hidden (e :: es) (e :: es')
  | left {e : ε} {es es' : List ε} (he : hidden e) (h : SameBut hidden es es') :
      SameBut hidden (e :: es) es'
  | right {e : ε} {es es' : List ε} (he : hidden e) (h : SameBut hidden es es') :
      SameBut hidden es (e :: es')

theorem SameBut.refl {ε : Type*} {hidden : ε → Prop} (es : List ε) : SameBut hidden es es := by
  induction es with
  | nil => exact .nil
  | cons e es ih => exact .cons e ih

/-- States that stay alike, whatever hidden events happen to the one or the other, take the
same steps otherwise. -/
theorem run_of_sameBut {σ ε : Type*} {step : σ → ε → Option σ} {Alike : σ → σ → Prop}
    {hidden ok : ε → Prop}
    (hcons : ∀ s s' e t, Alike s s' → ok e → step s e = some t →
      ∃ t', step s' e = some t' ∧ Alike t t')
    (hleft : ∀ s s' e t, Alike s s' → hidden e → step s e = some t → Alike t s')
    (hright : ∀ s s' e, Alike s s' → hidden e → ∃ t', step s' e = some t' ∧ Alike s t')
    {s s' t : σ} {es es' : List ε} (h : SameBut hidden es es') (hok : ∀ e ∈ es, ok e)
    (hs : Alike s s') (hr : run step s es = some t) :
    ∃ t', run step s' es' = some t' ∧ Alike t t' := by
  induction h generalizing s s' with
  | nil =>
    obtain rfl := Option.some.inj hr
    exact ⟨s', rfl, hs⟩
  | cons e h ih =>
    obtain ⟨m, hm, hrest⟩ := run_cons.mp hr
    obtain ⟨m', hm', halike⟩ := hcons s s' e m hs (hok e (by simp)) hm
    obtain ⟨t', ht', hend⟩ := ih (fun e' he' => hok e' (by simp [he'])) halike hrest
    exact ⟨t', run_cons.mpr ⟨m', hm', ht'⟩, hend⟩
  | left he h ih =>
    obtain ⟨m, hm, hrest⟩ := run_cons.mp hr
    exact ih (fun e' he' => hok e' (by simp [he'])) (hleft s s' _ m hs he hm) hrest
  | right he h ih =>
    obtain ⟨m', hm', halike⟩ := hright s s' _ hs he
    obtain ⟨t', ht', hend⟩ := ih hok halike hr
    exact ⟨t', run_cons.mpr ⟨m', hm', ht'⟩, hend⟩

/-- Some event of the run satisfies `P`, and `touches` holds of none after it. -/
def LastEvent {σ ε : Type*} (step : σ → ε → Option σ) (touches P : σ → ε → Prop) (s : σ)
    (es : List ε) : Prop :=
  ∃ pre e post m m', es = pre ++ e :: post ∧ run step s pre = some m ∧ P m e ∧
    step m e = some m' ∧ Along step (fun s e => ¬ touches s e) m' post

theorem lastEvent_concat {σ ε : Type*} {step : σ → ε → Option σ} {touches P : σ → ε → Prop}
    {s m m' : σ} {es : List ε} {e : ε} (hm : run step s es = some m) (hP : P m e)
    (he : step m e = some m') : LastEvent step touches P s (es ++ [e]) :=
  ⟨es, e, [], m, m', rfl, hm, hP, he, trivial⟩

theorem LastEvent.concat {σ ε : Type*} {step : σ → ε → Option σ} {touches P : σ → ε → Prop}
    {s m : σ} {es : List ε} {e : ε} (h : LastEvent step touches P s es)
    (hm : run step s es = some m) (he : ¬ touches m e) :
    LastEvent step touches P s (es ++ [e]) := by
  obtain ⟨pre, e', post, a, b, rfl, ha, hP, hb, hpost⟩ := h
  refine ⟨pre, e', post ++ [e], a, b, by simp, ha, hP, hb, ?_⟩
  refine along_concat.mpr ⟨hpost, fun t ht => ?_⟩
  have hrun : run step s (pre ++ e' :: post) = some t := by
    rw [run_append, ha, Option.bind_some, run_cons]
    exact ⟨b, hb, ht⟩
  obtain rfl : m = t := Option.some.inj (hm.symm.trans hrun)
  exact he

/-- What holds of all operations in a list still does when one of them moves on to
something that keeps it. -/
theorem forall_mem_modify {α : Type*} {P : α → Prop} {l : List α} {i : ℕ} {f : α → α}
    (h : ∀ a ∈ l, P a) (hi : ∀ a, l[i]? = some a → P (f a)) : ∀ a ∈ l.modify i f, P a := by
  intro a hmem
  obtain ⟨j, hj⟩ := List.mem_iff_getElem?.mp hmem
  rw [List.getElem?_modify] at hj
  obtain ⟨b, hb, rfl⟩ := Option.map_eq_some_iff.mp hj
  split_ifs with hij
  · exact hi b (hij ▸ hb)
  · exact h b (List.mem_of_getElem? hb)

/-- What holds of all operations in a list and of another one still does when that one
is started. -/
theorem forall_mem_concat {α : Type*} {P : α → Prop} {l : List α} {b : α} (h : ∀ a ∈ l, P a)
    (hb : P b) : ∀ a ∈ l ++ [b], P a :=
  List.forall_mem_append.mpr ⟨h, List.forall_mem_singleton.mpr hb⟩

/-- What holds of the values of a partial function holds after an assignment. -/
theorem forall_update_some {ι α : Type*} [DecidableEq ι] {P : ι → α → Prop} {f : ι → Option α}
    {i : ι} {a : Option α} (h : ∀ j b, f j = some b → P j b) (ha : ∀ b, a = some b → P i b) :
    ∀ j b, Function.update f i a j = some b → P j b :=
  (Function.forall_update_iff f fun j a => ∀ b, a = some b → P j b).mpr ⟨ha, fun j _ => h j⟩

/-- An operation keeps its index when another one is started. -/
theorem getElem?_concat_of_some {α : Type*} {l : List α} {i : ℕ} {a b : α} (h : l[i]? = some a) :
    (l ++ [b])[i]? = some a := by
  obtain ⟨hi, -⟩ := List.getElem?_eq_some_iff.mp h
  rw [List.getElem?_append_left hi, h]

theorem getElem?_concat_cases {α : Type*} {l : List α} {i : ℕ} {a b : α}
    (h : (l ++ [b])[i]? = some a) : l[i]? = some a ∨ i = l.length ∧ a = b := by
  by_cases hi : i < l.length
  · exact .inl (by rwa [List.getElem?_append_left hi] at h)
  · rw [List.getElem?_append_right (by omega)] at h
    obtain ⟨hlt, ha⟩ := List.getElem?_eq_some_iff.mp h
    have hlen : i - l.length < 1 := by simpa using hlt
    refine .inr ⟨by omega, ?_⟩
    rw [← ha]
    simp

theorem modify_concat {α : Type*} (l : List α) (a : α) (f : α → α) :
    (l ++ [a]).modify l.length f = l ++ [f a] := by
  simp [List.modify_eq_take_cons_drop]

/-- What is recorded of operations, recorded of one that moves on. -/
theorem map_modify {α β : Type*} {f : α → β} {g : α → α} {g' : β → β}
    (h : ∀ a, f (g a) = g' (f a)) (l : List α) (i : ℕ) :
    (l.modify i g).map f = (l.map f).modify i g' := by
  ext j b
  simp only [List.getElem?_map, List.getElem?_modify]
  cases l[j]? with
  | none => simp
  | some a =>
    by_cases hij : i = j
    · simp [hij, h]
    · simp [hij]

/-- An operation in flight that is done with gives up what it was still to yield. -/
theorem filterMap_set_perm {α β : Type*} {f : α → Option β} {l : List α} {i : ℕ} {a b : α}
    (hi : l[i]? = some a) (hb : f b = none) :
    (l.filterMap f).Perm ((f a).toList ++ (l.set i b).filterMap f) := by
  have hcons : ∀ x xs, (x :: xs).filterMap f = (f x).toList ++ xs.filterMap f := by
    intro x xs
    cases hx : f x <;> simp [hx]
  induction l generalizing i with
  | nil => simp at hi
  | cons x l ih =>
    cases i with
    | zero =>
      obtain rfl : x = a := by simpa using hi
      simp only [List.set_cons_zero, hcons, hb, Option.toList_none, List.nil_append]
      exact List.Perm.refl _
    | succ i =>
      have hrest := ih (by simpa using hi)
      simp only [List.set_cons_succ, hcons]
      exact (hrest.append_left _).trans (List.perm_append_comm_assoc ..)

/-- What an operation yields is added to what the others have yielded. -/
theorem reduceOption_set_perm {β : Type*} {l : List (Option β)} {i : ℕ} (hi : l[i]? = some none)
    (b : Option β) : (l.set i b).reduceOption.Perm (b.toList ++ l.reduceOption) := by
  obtain ⟨hlt, hnone⟩ := List.getElem?_eq_some_iff.mp hi
  have hset : (l.set i b)[i]? = some b := List.getElem?_set_self hlt
  have hback : (l.set i b).set i none = l := by rw [List.set_set, ← hnone, List.set_getElem_self]
  have hperm := filterMap_set_perm (f := id) (b := none) hset rfl
  rwa [hback] at hperm

/-- A loop whose passes may fail ends with a value for each of them. -/
theorem mapM_eq_some_iff {α β : Type*} {f : α → Option β} {xs : List α} {ys : List β} :
    xs.mapM f = some ys ↔ xs.map f = ys.map some := by
  induction xs generalizing ys with
  | nil => cases ys <;> simp
  | cons x xs ih =>
    simp only [List.mapM_cons, Option.bind_eq_bind, Option.bind_eq_some_iff, Option.pure_def,
      Option.some.injEq, List.map_cons]
    constructor
    · rintro ⟨y, hy, zs, hzs, rfl⟩
      rw [hy, ih.mp hzs, List.map_cons]
    · intro h
      cases ys with
      | nil => cases h
      | cons y ys =>
        obtain ⟨hy, hys⟩ := List.cons.inj h
        exact ⟨y, hy, ys, ih.mpr hys, rfl⟩

theorem isSome_mapM_iff {α β : Type*} {f : α → Option β} {xs : List α} :
    (xs.mapM f).isSome = true ↔ ∀ x ∈ xs, (f x).isSome = true := by
  induction xs with
  | nil => simp
  | cons x xs ih =>
    rw [List.forall_mem_cons, ← ih]
    cases hx : f x <;> cases hxs : xs.mapM f <;> simp [hx, hxs]

/-- A store and the local state of every process that works on it. -/
structure Shared (σ ι π : Type*) where
  store : σ
  process : ι → π

/-- One process takes one step on the shared store. -/
def interleave {σ ι π ε : Type*} [DecidableEq ι] (step : ι → σ → π → ε → Option (σ × π))
    (s : Shared σ ι π) (e : ι × ε) : Option (Shared σ ι π) :=
  (step e.1 s.store (s.process e.1) e.2).map fun r =>
    ⟨r.1, Function.update s.process e.1 r.2⟩

theorem interleave_eq_some {σ ι π ε : Type*} [DecidableEq ι]
    {step : ι → σ → π → ε → Option (σ × π)} {s t : Shared σ ι π} {e : ι × ε} :
    interleave step s e = some t ↔
      ∃ store p, step e.1 s.store (s.process e.1) e.2 = some (store, p) ∧
      t = ⟨store, Function.update s.process e.1 p⟩ := by
  simp only [interleave, Option.map_eq_some_iff, Prod.exists]
  constructor
  · rintro ⟨a, b, h, rfl⟩
    exact ⟨a, b, h, rfl⟩
  · rintro ⟨a, b, h, rfl⟩
    exact ⟨a, b, h, rfl⟩

/-- A process that has the store to itself. -/
theorem run_interleave_unit {σ π ε : Type*} {step : Unit → σ → π → ε → Option (σ × π)}
    {s t : Shared σ Unit π} {es : List (Unit × ε)} (h : run (interleave step) s es = some t) :
    run (fun m e => step () m.1 m.2 e) (s.store, s.process ()) (es.map Prod.snd) =
      some (t.store, t.process ()) := by
  induction es generalizing s with
  | nil =>
    obtain rfl := Option.some.inj h
    rfl
  | cons e es ih =>
    obtain ⟨m, hm, hrest⟩ := run_cons.mp h
    obtain ⟨store, p, hstep, rfl⟩ := interleave_eq_some.mp hm
    exact run_cons.mpr ⟨_, hstep, by simpa using ih hrest⟩

end Runs
