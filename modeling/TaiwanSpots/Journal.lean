import Mathlib.Algebra.Order.Group.Multiset
import Mathlib.Tactic.Abel
import TaiwanSpots.Separation

/-!
# The journal of what processes write

Processes of one group write to a view of the store that the other group leaves alone.
Each write is issued by a process, is in flight, and is carried out once or lost. When
every step keeps such a journal, the view is what the writes that were carried out have
made of it, in their order, and each process has issued its own.
-/
namespace Runs

/-- How to read a journal: what a process has issued so far, what it has in flight, and
the write that one of its events carries out. -/
structure Journal (σ π ε ω : Type*) where
  issued : π → List ω
  inFlight : π → Multiset ω
  carried : π → ε → Option ω
  perform : σ → ω → σ

/-- One write at most is carried out, and it was in flight or has just been issued. -/
def Covered {ω : Type*} (before after : Multiset ω) (carried : Option ω) (new : List ω) : Prop :=
  ↑carried.toList + after ≤ before + ↑new

section
variable {ω α : Type*} {before after : Multiset ω} {carried : Option ω} {new : List ω}

theorem Covered.refl (m : Multiset ω) : Covered m m none [] := by simp [Covered]

/-- What else is in flight does not matter. -/
theorem Covered.add_right (h : Covered before after carried new) (m : Multiset ω) :
    Covered (before + m) (after + m) carried new := by
  unfold Covered at *
  calc (↑carried.toList : Multiset ω) + (after + m)
      = ↑carried.toList + after + m := by abel
    _ ≤ before + ↑new + m := add_le_add_left h m
    _ = before + m + ↑new := by abel

theorem Covered.add_left (h : Covered before after carried new) (m : Multiset ω) :
    Covered (m + before) (m + after) carried new := by
  rw [add_comm m, add_comm m]
  exact h.add_right m

variable {g : α → List ω} {l : List α}

theorem coe_flatMap_modify {f : α → α} {i : ℕ} {a : α} (hi : l[i]? = some a) :
    (↑((l.modify i f).flatMap g) : Multiset ω) + ↑(g a) = ↑(l.flatMap g) + ↑(g (f a)) := by
  induction l generalizing i with
  | nil => simp at hi
  | cons b l ih =>
    cases i with
    | zero =>
      obtain rfl : b = a := by simpa using hi
      simp only [List.modify_zero_cons, List.flatMap_cons, ← Multiset.coe_add]
      abel
    | succ i =>
      have hrest := ih (by simpa using hi)
      simp only [List.modify_succ_cons, List.flatMap_cons, ← Multiset.coe_add]
      rw [add_assoc, hrest, add_assoc]

/-- One operation moves on. -/
theorem covered_modify {f : α → α} {i : ℕ} {a : α} (hi : l[i]? = some a)
    (h : Covered (↑(g a)) (↑(g (f a))) carried new) :
    Covered (↑(l.flatMap g)) (↑((l.modify i f).flatMap g)) carried new := by
  unfold Covered at *
  refine le_of_add_le_add_right (a := (↑(g a) : Multiset ω)) ?_
  calc (↑carried.toList : Multiset ω) + ↑((l.modify i f).flatMap g) + ↑(g a)
      = ↑(l.flatMap g) + (↑carried.toList + ↑(g (f a))) := by
        rw [add_assoc, coe_flatMap_modify hi]
        abel
    _ ≤ ↑(l.flatMap g) + (↑(g a) + ↑new) := add_le_add_right h _
    _ = ↑(l.flatMap g) + ↑new + ↑(g a) := by abel

/-- An operation is started that has nothing in flight yet. -/
theorem covered_concat {b : α} (hb : g b = []) :
    Covered (↑(l.flatMap g) : Multiset ω) (↑((l ++ [b]).flatMap g)) none [] := by
  simp [Covered, hb]

end

namespace Journal
variable {σ τ ι π κ ρ ε δ ω : Type*}

/-- The store after the write, if there is one. -/
def after (J : Journal σ ρ δ ω) (s : σ) (w : Option ω) : σ := w.elim s (J.perform s)

/-- The writes depend on the view of the store only. -/
def ActsOn (J : Journal σ ρ δ ω) (view : σ → τ) : Prop :=
  ∀ s s' w, view s = view s' → view (J.perform s w) = view (J.perform s' w)

/-- A process changes the view by the writes that it carries out, and carries out what it
has issued and not carried out before. -/
def Kept (J : Journal σ ρ δ ω) (view : σ → τ) (g : κ → σ → ρ → δ → Option (σ × ρ)) : Prop :=
  ∀ k s p d t, g k s p d = some t →
    view t.1 = view (J.after s (J.carried p d)) ∧
    ∃ new, J.issued t.2 = J.issued p ++ new ∧
      Covered (J.inFlight p) (J.inFlight t.2) (J.carried p d) new

/-- The write that an event of either group carries out, and by whom. -/
def carries (J : Journal σ ρ δ ω) (s : Groups σ ι π κ ρ) :
    (ι × ε) ⊕ (κ × δ) → Option (κ × ω)
  | .inl _ => none
  | .inr d => (J.carried (s.second d.1) d.2).map fun w => (d.1, w)

/-- One more entry. -/
def note (J : Journal σ ρ δ ω) (s : Groups σ ι π κ ρ) (e : (ι × ε) ⊕ (κ × δ))
    (entries : List (κ × ω)) : List (κ × ω) :=
  entries ++ (J.carries s e).toList

/-- The entries of one process. -/
def entriesOf [DecidableEq κ] (k : κ) (entries : List (κ × ω)) : List ω :=
  entries.filterMap fun entry => if entry.1 = k then some entry.2 else none

@[simp] theorem entriesOf_append [DecidableEq κ] (k : κ) (entries entries' : List (κ × ω)) :
    entriesOf k (entries ++ entries') = entriesOf k entries ++ entriesOf k entries' :=
  List.filterMap_append

theorem entriesOf_map_self [DecidableEq κ] (k : κ) (w : Option ω) :
    entriesOf k (w.map fun w => (k, w)).toList = w.toList := by
  cases w <;> simp [entriesOf]

theorem entriesOf_map_of_ne [DecidableEq κ] {k k' : κ} (hne : k' ≠ k) (w : Option ω) :
    entriesOf k (w.map fun w => (k', w)).toList = [] := by
  cases w <;> simp [entriesOf, hne]

/-- The store after the entries. -/
def replay (J : Journal σ ρ δ ω) (s : σ) (entries : List (κ × ω)) : σ :=
  entries.foldl (fun s entry => J.perform s entry.2) s

theorem replay_map_toList (J : Journal σ ρ δ ω) (s : σ) (entries : List (κ × ω)) (k : κ)
    (w : Option ω) : J.replay s (entries ++ (w.map fun w => (k, w)).toList) =
      J.after (J.replay s entries) w := by
  cases w <;> simp [replay, after]

section
variable [DecidableEq ι] [DecidableEq κ] {J : Journal σ ρ δ ω} {view : σ → τ}
  {ok : π → Prop} {f : ι → σ → π → ε → Option (σ × π)} {g : κ → σ → ρ → δ → Option (σ × ρ)}
  {s t : Groups σ ι π κ ρ} {es : List ((ι × ε) ⊕ (κ × δ))}

/-- What holds after the entries of a run. -/
structure Accounts (J : Journal σ ρ δ ω) (view : σ → τ) (s : Groups σ ι π κ ρ)
    (entries : List (κ × ω)) (t : Groups σ ι π κ ρ) : Prop where
  store : view t.store = view (J.replay s.store entries)
  issued : ∀ k, ∃ new, J.issued (t.second k) = J.issued (s.second k) ++ new ∧
    ↑(entriesOf k entries) + J.inFlight (t.second k) ≤ J.inFlight (s.second k) + ↑new

omit [DecidableEq ι] in
theorem Accounts.refl (s : Groups σ ι π κ ρ) : Accounts J view s [] s :=
  ⟨rfl, fun _ => ⟨[], by simp [entriesOf]⟩⟩

theorem ActsOn.after (hJ : J.ActsOn view) {a b : σ} (h : view a = view b) (w : Option ω) :
    view (J.after a w) = view (J.after b w) := by
  cases w with
  | none => exact h
  | some w => exact hJ a b w h

/-- A step of the writing group adds its entry. -/
theorem Accounts.inr {entries : List (κ × ω)} {m m' : Groups σ ι π κ ρ} {d : κ × δ}
    (hm : Accounts J view s entries m) (hJ : J.ActsOn view) (hg : J.Kept view g)
    (hstep : beside f g m (.inr d) = some m') :
    Accounts J view s (J.note (ε := ε) m (.inr d) entries) m' := by
  obtain ⟨hinter, -⟩ := beside_inr.mp hstep
  obtain ⟨store, p, hd, hm'⟩ := interleave_eq_some.mp hinter
  obtain ⟨rfl, hsecond⟩ := Shared.mk.inj hm'
  obtain ⟨hview, new, hnew, hle⟩ := hg _ _ _ _ _ hd
  constructor
  · rw [note, carries, replay_map_toList, ← hJ.after hm.store]
    exact hview
  · intro k
    obtain ⟨old, hold, hbound⟩ := hm.issued k
    rw [note, carries, entriesOf_append, ← Multiset.coe_add, hsecond]
    by_cases hk : k = d.1
    · subst hk
      rw [Function.update_self, entriesOf_map_self]
      refine ⟨old ++ new, by rw [hnew, hold, List.append_assoc], ?_⟩
      calc (↑(entriesOf d.1 entries) : Multiset ω) + ↑(J.carried (m.second d.1) d.2).toList +
            J.inFlight p
          = ↑(entriesOf d.1 entries) + (↑(J.carried (m.second d.1) d.2).toList + J.inFlight p) :=
            add_assoc _ _ _
        _ ≤ ↑(entriesOf d.1 entries) + (J.inFlight (m.second d.1) + ↑new) := add_le_add_right hle _
        _ = ↑(entriesOf d.1 entries) + J.inFlight (m.second d.1) + ↑new := (add_assoc _ _ _).symm
        _ ≤ J.inFlight (s.second d.1) + ↑old + ↑new := add_le_add_left hbound _
        _ = J.inFlight (s.second d.1) + ↑(old ++ new) := by rw [add_assoc, Multiset.coe_add]
    · rw [Function.update_of_ne hk, entriesOf_map_of_ne (Ne.symm hk)]
      exact ⟨old, hold, by simpa using hbound⟩

/-- A step of the other group changes nothing that the journal is about. -/
theorem Accounts.inl {entries : List (κ × ω)} {m m' : Groups σ ι π κ ρ} {e : ι × ε}
    (hm : Accounts J view s entries m) (hview : view m'.store = view m.store)
    (hstep : beside f g m (.inl e) = some m') :
    Accounts J view s (J.note (δ := δ) m (.inl e) entries) m' := by
  obtain ⟨-, hsecond⟩ := beside_inl.mp hstep
  refine ⟨?_, fun k => ?_⟩
  · rw [hview, note, carries, Option.toList_none, List.append_nil]
    exact hm.store
  · rw [hsecond, note, carries, Option.toList_none, List.append_nil]
    exact hm.issued k

/-- The entries of a run account for the view and for what has been issued. -/
theorem accounts_of_run (hJ : J.ActsOn view) (hg : J.Kept view g) (hf : LeavesAlone view ok f)
    (hok : ∀ i, ok (s.first i)) (hr : run (beside f g) s es = some t) :
    Accounts J view s (noted (beside f g) J.note s [] es) t := by
  have hkept : (∀ i, ok (t.first i)) ∧
      Accounts J view s (noted (beside f g) J.note s [] es) t := by
    refine invariant_of_prefix (I := fun pre m => (∀ i, ok (m.first i)) ∧
      Accounts J view s (noted (beside f g) J.note s [] pre) m)
      (fun pre m e m' hrun hm hstep => ?_) ⟨hok, .refl s⟩ hr
    rw [noted_concat hrun hstep]
    cases e with
    | inl e =>
      obtain ⟨hview, hok⟩ := hf.interleave hm.1 (beside_inl.mp hstep).1
      exact ⟨hok, hm.2.inl hview hstep⟩
    | inr d => exact ⟨(beside_inr.mp hstep).2 ▸ hm.1, hm.2.inr hJ hg hstep⟩
  exact hkept.2

end

end Journal
end Runs
