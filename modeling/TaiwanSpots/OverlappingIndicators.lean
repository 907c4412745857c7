import TaiwanSpots.LoadingIndicator

/-!
# Loads that overlap

All flows share one slot for the indicator that is shown. `showLoading` puts a new
one there and forgets the one before it, `hideLoading` dismisses the one that is
there. What is dismissed in the end depends on the order of the calls alone, whoever
makes them.
-/
namespace TaiwanSpots

/-- A call to `HUD.shared`. -/
inductive HUDCall where
  | showLoading
  | hideLoading
  deriving DecidableEq, Repr

def HUD.perform (h : HUD) : HUDCall → HUD
  | .showLoading => h.showLoading
  | .hideLoading => h.hideLoading

/-- The calls of all flows in the order in which they are made. -/
def HUD.performAll (h : HUD) (calls : List HUDCall) : HUD := calls.foldl HUD.perform h

/-- Every indicator that was ever shown has been told to dismiss. -/
def HUD.AllDismissed (h : HUD) : Prop := ∀ n < h.shown, n ∈ h.dismissed

/-- A flow shows the indicator once and hides it at least once after that. -/
def CompleteFlow (calls : List HUDCall) : Prop :=
  ∃ n, calls = .showLoading :: List.replicate (n + 1) .hideLoading

/-- The calls of one flow, in order. -/
def callsOf {ι : Type*} [DecidableEq ι] (flow : ι) (calls : List (ι × HUDCall)) : List HUDCall :=
  (calls.filter fun call => call.1 = flow).map Prod.snd

/-- An interleaving of flows all of which have finished. -/
def Interleaving {ι : Type*} [DecidableEq ι] (calls : List (ι × HUDCall)) : Prop :=
  ∀ flow, callsOf flow calls = [] ∨ CompleteFlow (callsOf flow calls)

/-- Of two calls that follow one another, one hides. -/
def Apart (call next : HUDCall) : Prop := call = .hideLoading ∨ next = .hideLoading

theorem HUD.WellFormed.perform {h : HUD} (hwf : h.WellFormed) {n : ℕ} (hhud : h.hud = some n)
    (hn : n < h.shown) (call : HUDCall) : (h.perform call).WellFormed := by
  cases call with
  | showLoading =>
    intro k hk
    have hlt := hwf k hk
    show k < h.shown + 1
    omega
  | hideLoading =>
    intro k hk
    simp only [HUD.perform, HUD.hideLoading, hhud, List.mem_append, List.mem_singleton] at hk ⊢
    rcases hk with hk | rfl
    · exact hwf k hk
    · exact hn

/-- An indicator that has been replaced is never dismissed any more. -/
theorem HUD.not_mem_dismissed_performAll {h : HUD} {n k : ℕ} (hhud : h.hud = some n)
    (hn : n < h.shown) (hk : k < n) (hopen : k ∉ h.dismissed) (calls : List HUDCall) :
    k ∉ (h.performAll calls).dismissed ∧ k < (h.performAll calls).shown := by
  induction calls generalizing h n with
  | nil => exact ⟨hopen, by simp only [HUD.performAll, List.foldl_nil]; omega⟩
  | cons call calls ih =>
    cases call with
    | showLoading =>
      exact ih (h := h.showLoading) rfl (Nat.lt_succ_self _) (lt_trans hk hn) hopen
    | hideLoading =>
      have hhide : h.hideLoading = { h with dismissed := h.dismissed ++ [n] } := by
        simp only [HUD.hideLoading, hhud]
      refine ih (h := h.hideLoading) (n := n) (by rw [hhide]; exact hhud) (by rw [hhide]; exact hn)
        hk ?_
      rw [hhide]
      simp only [List.mem_append, List.mem_singleton, not_or]
      exact ⟨hopen, by omega⟩

theorem HUD.Shows.allDismissed {h : HUD} {n : ℕ} {P : Prop} (hs : h.Shows n P) (hP : P)
    (hearlier : ∀ k < n, k ∈ h.dismissed) : h.AllDismissed := by
  intro k hk
  rw [hs.shown] at hk
  rcases Nat.lt_succ_iff_lt_or_eq.mp hk with hk | rfl
  · exact hearlier k hk
  · exact hs.dismissed.mpr hP

/-- With all earlier indicators dismissed, the calls that follow leave none behind when
no two of them show one after the other, the one that is open counted in. -/
theorem HUD.allDismissed_performAll {h : HUD} {n : ℕ} {P : Prop} (hs : h.Shows n P)
    (hwf : h.WellFormed) (hearlier : ∀ k < n, k ∈ h.dismissed) (calls : List HUDCall) :
    (P → calls.getLast? ≠ some .showLoading →
      ((h.performAll calls).AllDismissed ↔ calls.IsChain Apart)) ∧
    (¬ P → (HUDCall.showLoading :: calls).getLast? ≠ some .showLoading →
      ((h.performAll calls).AllDismissed ↔ (HUDCall.showLoading :: calls).IsChain Apart)) := by
  induction calls generalizing h n P with
  | nil =>
    exact ⟨fun hP _ => iff_of_true (hs.allDismissed hP hearlier) List.IsChain.nil,
      fun _ hlast => absurd rfl hlast⟩
  | cons call calls ih =>
    have hn : n < h.shown := by rw [hs.shown]; exact Nat.lt_succ_self n
    have hwf' : (h.perform call).WellFormed := hwf.perform hs.hud hn call
    cases call with
    | showLoading =>
      refine ⟨fun hP hlast => ?_, fun hP _ => iff_of_false (fun hall => ?_) fun hchain => ?_⟩
      · exact (ih hwf.showLoading hwf' (hs.allDismissed hP hearlier)).2 id hlast
      · have hopen : n ∉ h.dismissed := fun hmem => hP (hs.dismissed.mp hmem)
        obtain ⟨hnot, hlt⟩ := HUD.not_mem_dismissed_performAll (h := h.showLoading) rfl
          (Nat.lt_succ_self _) hn hopen calls
        exact hnot (hall n hlt)
      · rcases (List.isChain_cons_cons.mp hchain).1 with hhide | hhide <;> cases hhide
    | hideLoading =>
      have hearlier' : ∀ k < n, k ∈ h.hideLoading.dismissed := by
        intro k hk
        simp only [HUD.hideLoading, hs.hud]
        exact List.mem_append_left _ (hearlier k hk)
      have hrest : calls.getLast? ≠ some .showLoading →
          ((h.performAll (.hideLoading :: calls)).AllDismissed ↔ calls.IsChain Apart) :=
        (ih hs.hideLoading hwf' hearlier').1 trivial
      have hlater : (HUDCall.hideLoading :: calls).getLast? ≠ some .showLoading →
          calls.getLast? ≠ some .showLoading := by
        intro hlast hcalls
        rw [List.getLast?_cons, hcalls] at hlast
        exact hlast rfl
      have hchain : (HUDCall.hideLoading :: calls).IsChain Apart ↔ calls.IsChain Apart := by
        cases calls with
        | nil => simp
        | cons next calls => simp [List.isChain_cons_cons, Apart]
      refine ⟨fun _ hlast => (hrest (hlater hlast)).trans hchain.symm, fun _ hlast => ?_⟩
      rw [List.isChain_cons_cons, hchain,
        hrest (hlater (by simpa [List.getLast?_cons] using hlast))]
      simp [Apart]

section
variable {ι : Type*} [DecidableEq ι] {calls : List (ι × HUDCall)} {flow : ι} {call : HUDCall}

/-- The first call of all is the first of its flow. -/
theorem Interleaving.head (h : Interleaving ((flow, call) :: calls)) : call = .showLoading := by
  rcases h flow with hnil | ⟨n, hflow⟩
  · simp [callsOf] at hnil
  · simp only [callsOf, List.filter_cons, decide_true, if_true, List.map_cons] at hflow
    exact (List.cons.inj hflow).1

/-- The last call of all is the last of its flow. -/
theorem Interleaving.last (h : Interleaving (calls ++ [(flow, call)])) : call = .hideLoading := by
  have hcalls : callsOf flow (calls ++ [(flow, call)]) = callsOf flow calls ++ [call] := by
    simp [callsOf, List.filter_append]
  rcases h flow with hnil | ⟨n, hflow⟩
  · simp [hcalls] at hnil
  · rw [hcalls, List.replicate_succ', ← List.cons_append] at hflow
    exact (List.append_inj' hflow rfl).2 |> List.singleton_inj.mp

theorem Interleaving.getLast? (h : Interleaving calls) :
    (calls.map Prod.snd).getLast? ≠ some .showLoading := by
  rcases List.eq_nil_or_concat calls with rfl | ⟨init, ⟨flow, call⟩, rfl⟩
  · simp
  · rw [List.concat_eq_append] at h ⊢
    obtain rfl := h.last
    simp

/-- Of flows that have all finished, every indicator has been dismissed exactly when no
flow shows one directly after another, with no call to hide between the two. -/
theorem overlapping_loads_dismissed_iff (h : Interleaving calls) :
    (HUD.performAll ⟨none, 0, []⟩ (calls.map Prod.snd)).AllDismissed ↔
      (calls.map Prod.snd).IsChain Apart := by
  have hlast := h.getLast?
  cases calls with
  | nil => exact iff_of_true (fun n hn => absurd hn (Nat.not_lt_zero n)) List.IsChain.nil
  | cons call calls =>
    obtain ⟨flow, call⟩ := call
    obtain rfl := h.head
    have hwf : HUD.WellFormed ⟨none, 0, []⟩ := fun n hn => absurd hn List.not_mem_nil
    exact (HUD.allDismissed_performAll hwf.showLoading (fun n hn => absurd hn List.not_mem_nil)
      (fun k hk => absurd hk (Nat.not_lt_zero k)) (calls.map Prod.snd)).2 id hlast

end

/-- A page hides the indicator once for each of two spots, and a removal starts between. -/
def sampleInterleaved : List (Bool × HUDCall) :=
  [(false, .showLoading), (false, .hideLoading), (true, .showLoading), (false, .hideLoading),
    (true, .hideLoading)]

/-- Two removals in flight together. -/
def sampleOverlapping : List (Bool × HUDCall) :=
  [(false, .showLoading), (true, .showLoading), (false, .hideLoading), (true, .hideLoading)]

theorem interleaving_sampleInterleaved : Interleaving sampleInterleaved := by
  intro flow
  cases flow with
  | false => exact .inr ⟨1, by decide⟩
  | true => exact .inr ⟨0, by decide⟩

theorem overlapping_loads_dismissed_iff_sample :
    (HUD.performAll ⟨none, 0, []⟩ (sampleInterleaved.map Prod.snd)).AllDismissed ∧
      (sampleInterleaved.map Prod.snd).IsChain Apart := by
  have hapart : (sampleInterleaved.map Prod.snd).IsChain Apart := by
    simp [sampleInterleaved, Apart]
  exact ⟨(overlapping_loads_dismissed_iff interleaving_sampleInterleaved).mpr hapart, hapart⟩

/-- The second indicator replaces the first, and is dismissed twice. -/
theorem overlapping_loads_leave_spinner :
    Interleaving sampleOverlapping ∧
      ¬ (HUD.performAll ⟨none, 0, []⟩ (sampleOverlapping.map Prod.snd)).AllDismissed := by
  constructor
  · intro flow
    cases flow <;> exact .inr ⟨0, by decide⟩
  · intro h
    exact absurd (h 0 (by decide)) (by decide)

end TaiwanSpots
