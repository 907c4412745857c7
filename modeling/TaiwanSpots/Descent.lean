import Mathlib.Algebra.Order.BigOperators.Group.Finset
import Mathlib.Data.DFinsupp.WellFounded
import Mathlib.Data.Prod.Lex
import Mathlib.Order.OrderIsoNat
import TaiwanSpots.Separation

/-!
# Processes that come to rest

A rank in a well-founded order goes down with every event of the one kind and never up
with those of another. Then no run holds infinitely many events of the first kind among
events of the second, and every run goes on by events of the first kind until none of
them is enabled. Finitely many processes over one store have such a rank together when
each of them has one that does not look at the store.
-/
namespace Runs

/-- Allowed events keep the invariant and do not raise the rank; callbacks, which are
allowed, lower it. -/
structure Descent {σ ε α : Type*} [Preorder α] (step : σ → ε → Option σ)
    (allowed callback : ε → Prop) (I : σ → Prop) (rank : σ → α) : Prop where
  allowed_of_callback : ∀ e, callback e → allowed e
  keeps : ∀ s e t, I s → allowed e → step s e = some t → I t ∧ rank t ≤ rank s
  lowers : ∀ s e t, I s → callback e → step s e = some t → rank t < rank s

section
variable {σ ε α : Type*} [Preorder α] [WellFoundedLT α] {step : σ → ε → Option σ}
  {allowed callback : ε → Prop} {I : σ → Prop} {rank : σ → α}

/-- In an infinite run of allowed events the callbacks cease. -/
theorem Descent.callbacks_cease (h : Descent step allowed callback I rank) {state : ℕ → σ}
    {event : ℕ → ε} (h0 : I (state 0)) (hallowed : ∀ n, allowed (event n))
    (hstep : ∀ n, step (state n) (event n) = some (state (n + 1))) :
    ∃ N, ∀ n, N ≤ n → ¬ callback (event n) := by
  have hI : ∀ n, I (state n) := by
    intro n
    induction n with
    | zero => exact h0
    | succ n ih => exact (h.keeps _ _ _ ih (hallowed n) (hstep n)).1
  have hanti : Antitone fun n => rank (state n) :=
    antitone_nat_of_succ_le fun n => (h.keeps _ _ _ (hI n) (hallowed n) (hstep n)).2
  obtain ⟨N, hN⟩ := WellFoundedGT.monotone_chain_condition'
    (⟨fun n => OrderDual.toDual (rank (state n)), fun _ _ hle => hanti hle⟩ : ℕ →o αᵒᵈ)
  refine ⟨N, fun n hn hcallback => hN (n + 1) (hn.trans n.le_succ) ?_⟩
  exact OrderDual.toDual_lt_toDual.mpr
    ((h.lowers _ _ _ (hI n) hcallback (hstep n)).trans_le (hanti hn))

/-- By callbacks every state goes on to one in which none is enabled. -/
theorem Descent.exists_run_to_rest (h : Descent step allowed callback I rank) {s : σ} (h0 : I s) :
    ∃ es t, (∀ e ∈ es, callback e) ∧ run step s es = some t ∧ I t ∧
      ∀ e, callback e → step t e = none := by
  induction hrank : rank s using WellFoundedLT.induction generalizing s with
  | ind r ih =>
    subst hrank
    by_cases hrest : ∀ e, callback e → step s e = none
    · exact ⟨[], s, by simp, rfl, h0, hrest⟩
    · push Not at hrest
      obtain ⟨e, he, hne⟩ := hrest
      obtain ⟨m, hm⟩ := Option.ne_none_iff_exists'.mp hne
      obtain ⟨hmI, -⟩ := h.keeps _ _ _ h0 (h.allowed_of_callback e he) hm
      obtain ⟨es, t, hes, hr, ht⟩ := ih _ (h.lowers _ _ _ h0 he hm) hmI rfl
      exact ⟨e :: es, t, List.forall_mem_cons.mpr ⟨he, hes⟩, run_cons.mpr ⟨m, hm, hr⟩, ht⟩

end

section
variable {ι π ε κ ρ δ σ α β : Type*} [DecidableEq ι] [DecidableEq κ] [Preorder α] [Preorder β]
  {f : ι → σ → π → ε → Option (σ × π)} {g : κ → σ → ρ → δ → Option (σ × ρ)}
  {allowed callback : ε → Prop} {allowed' callback' : δ → Prop}
  {J : ι → π → Prop} {K : κ → ρ → Prop} {rank : ι → π → α} {rank' : κ → ρ → β}

/-- A process takes a step with every event as in `Descent`, whatever the store is. -/
def Descends (f : ι → σ → π → ε → Option (σ × π)) (allowed callback : ε → Prop)
    (J : ι → π → Prop) (rank : ι → π → α) : Prop :=
  ∀ i store p e t, J i p → allowed e → f i store p e = some t →
    J i t.2 ∧ rank i t.2 ≤ rank i p ∧ (callback e → rank i t.2 < rank i p)

/-- The events of either group. -/
def either (P : ε → Prop) (Q : δ → Prop) : (ι × ε) ⊕ (κ × δ) → Prop
  | .inl e => P e.2
  | .inr d => Q d.2

/-- An event is enabled when it is for its process. -/
theorem beside_eq_none {s : Groups σ ι π κ ρ} {P : ε → Prop} {Q : δ → Prop} :
    (∀ e, either P Q e → beside f g s e = none) ↔
      (∀ i e, P e → f i s.store (s.first i) e = none) ∧
        ∀ k d, Q d → g k s.store (s.second k) d = none := by
  constructor
  · intro h
    refine ⟨fun i e he => ?_, fun k d hd => ?_⟩
    · simpa [beside, interleave] using h (.inl (i, e)) he
    · simpa [beside, interleave] using h (.inr (k, d)) hd
  · rintro ⟨hf, hg⟩ (e | d) he
    · simp [beside, interleave, hf e.1 e.2 he]
    · simp [beside, interleave, hg d.1 d.2 he]

omit [DecidableEq κ] in
theorem rank_update_le {p : ι → π} {i : ι} {q : π} (h : rank i q ≤ rank i (p i)) :
    (fun j => rank j (Function.update p i q j)) ≤ fun j => rank j (p j) := by
  intro j
  by_cases hj : j = i
  · subst hj
    simpa using h
  · simp [Function.update_of_ne hj]

theorem rank_update_lt {p : ι → π} {i : ι} {q : π} (h : rank i q < rank i (p i)) :
    (fun j => rank j (Function.update p i q j)) < fun j => rank j (p j) :=
  Pi.lt_def.mpr ⟨rank_update_le h.le, i, by simpa using h⟩

/-- Two groups of processes go down together. -/
theorem descent_beside (hf : Descends f allowed callback J rank)
    (hg : Descends g allowed' callback' K rank') (hallowed : ∀ e, callback e → allowed e)
    (hallowed' : ∀ d, callback' d → allowed' d) :
    Descent (beside f g) (either allowed allowed') (either callback callback')
      (Groups.Sound (fun _ => True) J K)
      (fun s => ((fun i => rank i (s.first i)), fun k => rank' k (s.second k))) := by
  refine ⟨?_, ?_, ?_⟩
  · rintro (e | d) he
    · exact hallowed e.2 he
    · exact hallowed' d.2 he
  · rintro s (e | d) t hs he h
    · obtain ⟨hstep, hsecond⟩ := beside_inl.mp h
      obtain ⟨store, p, hp, heq⟩ := interleave_eq_some.mp hstep
      obtain ⟨-, hfirst⟩ := Shared.mk.inj heq
      obtain ⟨hJ, hle, -⟩ := hf _ _ _ _ _ (hs.first e.1) he hp
      rw [hfirst, hsecond]
      refine ⟨⟨trivial, ?_, hsecond ▸ hs.second⟩, Prod.mk_le_mk.mpr ⟨rank_update_le hle, le_rfl⟩⟩
      rw [hfirst]
      exact (Function.forall_update_iff _ J).mpr ⟨hJ, fun i _ => hs.first i⟩
    · obtain ⟨hstep, hfirst⟩ := beside_inr.mp h
      obtain ⟨store, q, hq, heq⟩ := interleave_eq_some.mp hstep
      obtain ⟨-, hsecond⟩ := Shared.mk.inj heq
      obtain ⟨hK, hle, -⟩ := hg _ _ _ _ _ (hs.second d.1) he hq
      rw [hfirst, hsecond]
      refine ⟨⟨trivial, hfirst ▸ hs.first, ?_⟩, Prod.mk_le_mk.mpr ⟨le_rfl, rank_update_le hle⟩⟩
      rw [hsecond]
      exact (Function.forall_update_iff _ K).mpr ⟨hK, fun k _ => hs.second k⟩
  · rintro s (e | d) t hs he h
    · obtain ⟨hstep, hsecond⟩ := beside_inl.mp h
      obtain ⟨store, p, hp, heq⟩ := interleave_eq_some.mp hstep
      obtain ⟨-, hfirst⟩ := Shared.mk.inj heq
      obtain ⟨-, -, hlt⟩ := hf _ _ _ _ _ (hs.first e.1) (hallowed e.2 he) hp
      rw [hfirst, hsecond]
      exact Prod.mk_lt_mk_of_lt_of_le (rank_update_lt (hlt he)) le_rfl
    · obtain ⟨hstep, hfirst⟩ := beside_inr.mp h
      obtain ⟨store, q, hq, heq⟩ := interleave_eq_some.mp hstep
      obtain ⟨-, hsecond⟩ := Shared.mk.inj heq
      obtain ⟨-, -, hlt⟩ := hg _ _ _ _ _ (hs.second d.1) (hallowed' d.2 he) hq
      rw [hfirst, hsecond]
      exact Prod.mk_lt_mk_of_le_of_lt le_rfl (rank_update_lt (hlt he))

end

/-- What operations have left to do, when one of them moves on. -/
theorem sum_map_modify {α : Type*} {l : List α} {i : ℕ} {a : α} (h : l[i]? = some a)
    (w : α → ℕ) (f : α → α) :
    ((l.modify i f).map w).sum + w a = (l.map w).sum + w (f a) := by
  induction l generalizing i with
  | nil => simp at h
  | cons b l ih =>
    cases i with
    | zero =>
      obtain rfl : b = a := by simpa using h
      simp only [List.modify_zero_cons, List.map_cons, List.sum_cons]
      omega
    | succ i =>
      have hrest := ih (by simpa using h)
      simp only [List.modify_succ_cons, List.map_cons, List.sum_cons]
      omega

theorem sum_map_modify_lt {α : Type*} {l : List α} {i : ℕ} {a : α} (h : l[i]? = some a)
    {w : α → ℕ} {f : α → α} (hlt : w (f a) < w a) :
    ((l.modify i f).map w).sum < (l.map w).sum := by
  have hsum := sum_map_modify h w f
  omega

/-- The same for a partial function with finitely many values. -/
theorem sum_range_update {α : Type*} {f : ℕ → Option α} {n i : ℕ} {a : α} (hi : i < n)
    (h : f i = some a) (w : α → ℕ) (b : α) :
    (∑ j ∈ Finset.range n, (Function.update f i (some b) j).elim 0 w) + w a =
      (∑ j ∈ Finset.range n, (f j).elim 0 w) + w b := by
  have hmem : i ∈ Finset.range n := Finset.mem_range.mpr hi
  have hothers : ∑ j ∈ (Finset.range n).erase i, (Function.update f i (some b) j).elim 0 w =
      ∑ j ∈ (Finset.range n).erase i, (f j).elim 0 w :=
    Finset.sum_congr rfl fun j hj => by rw [Function.update_of_ne (Finset.ne_of_mem_erase hj)]
  rw [← Finset.add_sum_erase _ _ hmem, ← Finset.add_sum_erase _ (fun j => (f j).elim 0 w) hmem,
    hothers, Function.update_self, h]
  simp only [Option.elim_some]
  omega

end Runs
