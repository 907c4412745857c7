import Mathlib.Data.List.AList

/-!
# Stores of documents and requests in flight

A store maps keys to documents. A request sets or deletes the document under
one key; an oracle says which requests fail, and a failed request has no
effect. Requests to one document take effect in the order in which they were
issued, requests to different documents in any order. Carrying out everything
in flight in issue order is therefore a value that no acknowledgement changes.
-/
namespace DocumentStore

abbrev Store (κ ν : Type*) := AList (fun _ : κ => ν)

/-- `some v` sets the document, `none` deletes it. The label names the request. -/
structure Request (ι κ ν : Type*) where
  label : ι
  key : κ
  value : Option ν

/-- Two stores hold the same documents. -/
def Agree {κ ν : Type*} [DecidableEq κ] (s t : Store κ ν) : Prop :=
  ∀ k, s.lookup k = t.lookup k

theorem Agree.refl {κ ν : Type*} [DecidableEq κ] (s : Store κ ν) : Agree s s := fun _ => rfl

theorem Agree.symm {κ ν : Type*} [DecidableEq κ] {s t : Store κ ν} (h : Agree s t) :
    Agree t s := fun k => (h k).symm

theorem Agree.trans {κ ν : Type*} [DecidableEq κ] {s t u : Store κ ν} (h : Agree s t)
    (h' : Agree t u) : Agree s u := fun k => (h k).trans (h' k)

theorem lookup_singleton {κ ν : Type*} [DecidableEq κ] (k : κ) (v : ν) (k' : κ) :
    (AList.singleton k v : Store κ ν).lookup k' = if k' = k then some v else none := by
  split_ifs with h
  · subst h
    exact List.dlookup_cons_eq ..
  · exact (List.dlookup_cons_ne _ _ h).trans (List.dlookup_nil _)

/-- What the server does with a request. -/
def perform {ι κ ν : Type*} [DecidableEq κ] (fails : ι → Bool) (s : Store κ ν)
    (r : Request ι κ ν) : Store κ ν :=
  if fails r.label then s
  else match r.value with
    | some v => s.insert r.key v
    | none => s.erase r.key

theorem lookup_perform {ι κ ν : Type*} [DecidableEq κ] (fails : ι → Bool) (s : Store κ ν)
    (r : Request ι κ ν) (k : κ) :
    (perform fails s r).lookup k =
      if k = r.key ∧ fails r.label = false then r.value else s.lookup k := by
  unfold perform
  by_cases hf : fails r.label
  · simp [hf]
  · by_cases hk : k = r.key
    · subst hk
      cases hv : r.value <;> simp [hf]
    · cases hv : r.value <;> simp [hf, hk]

/-- Everything in flight carried out in issue order. -/
def settle {ι κ ν : Type*} [DecidableEq κ] (fails : ι → Bool) (s : Store κ ν)
    (rs : List (Request ι κ ν)) : Store κ ν :=
  rs.foldl (perform fails) s

@[simp] theorem settle_nil {ι κ ν : Type*} [DecidableEq κ] (fails : ι → Bool) (s : Store κ ν) :
    settle fails s ([] : List (Request ι κ ν)) = s := rfl

theorem settle_cons {ι κ ν : Type*} [DecidableEq κ] (fails : ι → Bool) (s : Store κ ν)
    (r : Request ι κ ν) (rs : List (Request ι κ ν)) :
    settle fails s (r :: rs) = settle fails (perform fails s r) rs := rfl

theorem settle_append {ι κ ν : Type*} [DecidableEq κ] (fails : ι → Bool) (s : Store κ ν)
    (rs qs : List (Request ι κ ν)) :
    settle fails s (rs ++ qs) = settle fails (settle fails s rs) qs :=
  List.foldl_append ..

/-- The requests to one document that take effect, in issue order. -/
def effective {ι κ ν : Type*} [DecidableEq κ] (fails : ι → Bool) (k : κ)
    (rs : List (Request ι κ ν)) : List (Request ι κ ν) :=
  rs.filter fun r => k = r.key ∧ fails r.label = false

/-- The last effective request to a document decides it. -/
theorem lookup_settle {ι κ ν : Type*} [DecidableEq κ] (fails : ι → Bool) (s : Store κ ν)
    (rs : List (Request ι κ ν)) (k : κ) :
    (settle fails s rs).lookup k =
      match (effective fails k rs).getLast? with
      | some r => r.value
      | none => s.lookup k := by
  induction rs generalizing s with
  | nil => simp [effective]
  | cons r rs ih =>
    rw [settle_cons, ih, lookup_perform, effective, effective]
    by_cases h : k = r.key ∧ fails r.label = false
    · rw [List.filter_cons_of_pos (by simpa using h), List.getLast?_cons, if_pos h]
      cases (rs.filter fun r => k = r.key ∧ fails r.label = false).getLast? <;> rfl
    · rw [List.filter_cons_of_neg (by simpa using h), if_neg h]

theorem lookup_settle_of_untouched {ι κ ν : Type*} [DecidableEq κ] {fails : ι → Bool}
    {s : Store κ ν} {rs : List (Request ι κ ν)} {k : κ}
    (h : ∀ r ∈ rs, k = r.key → fails r.label = true) :
    (settle fails s rs).lookup k = s.lookup k := by
  have he : effective fails k rs = [] := by
    rw [effective, List.filter_eq_nil_iff]
    intro r hr hk
    simp only [decide_eq_true_eq] at hk
    simp [h r hr hk.1] at hk
  rw [lookup_settle, he]
  rfl

/-- When all effective requests to a document carry one value, that value stays. -/
theorem lookup_settle_of_value {ι κ ν : Type*} [DecidableEq κ] {fails : ι → Bool}
    {s : Store κ ν} {rs : List (Request ι κ ν)} {k : κ} {v : Option ν}
    (hv : ∀ r ∈ rs, k = r.key → fails r.label = false → r.value = v)
    (hex : ∃ r ∈ rs, k = r.key ∧ fails r.label = false) :
    (settle fails s rs).lookup k = v := by
  rw [lookup_settle]
  cases hl : (effective fails k rs).getLast? with
  | none =>
    obtain ⟨r, hr, hk⟩ := hex
    rw [List.getLast?_eq_none_iff, effective, List.filter_eq_nil_iff] at hl
    exact absurd (by simpa using hk) (hl r hr)
  | some r =>
    have hm := List.mem_of_getLast? hl
    simp only [effective, List.mem_filter, decide_eq_true_eq] at hm
    exact hv r hm.1 hm.2.1 hm.2.2

/-- The requests in an order in which they may be handled: those to one document
keep the order in which they were issued. -/
def InIssueOrder {ι κ ν : Type*} [DecidableEq κ] (rs qs : List (Request ι κ ν)) : Prop :=
  ∀ k, (qs.filter fun r => k = r.key) = rs.filter fun r => k = r.key

theorem effective_eq_filter {ι κ ν : Type*} [DecidableEq κ] (fails : ι → Bool) (k : κ)
    (rs : List (Request ι κ ν)) :
    effective fails k rs = (rs.filter fun r => k = r.key).filter fun r => !fails r.label := by
  rw [effective, List.filter_filter]
  apply List.filter_congr
  intro r _
  cases fails r.label <;> simp

/-- The order across documents does not matter. -/
theorem InIssueOrder.settle {ι κ ν : Type*} [DecidableEq κ] {rs qs : List (Request ι κ ν)}
    (h : InIssueOrder rs qs) (fails : ι → Bool) (s : Store κ ν) :
    Agree (settle fails s qs) (settle fails s rs) := by
  intro k
  rw [lookup_settle, lookup_settle, effective_eq_filter, effective_eq_filter, h k]

/-- Requests to different documents may be handled in any order. -/
theorem InIssueOrder.of_perm {ι κ ν : Type*} [DecidableEq κ] {rs qs : List (Request ι κ ν)}
    (h : qs.Perm rs) (hkeys : rs.Pairwise fun r r' => r.key ≠ r'.key) : InIssueOrder rs qs := by
  intro k
  have hperm := h.filter fun r => k = r.key
  have hapart : (rs.filter fun r => k = r.key).Pairwise fun r r' => r.key ≠ r'.key :=
    hkeys.sublist List.filter_sublist
  have hsame : ∀ r ∈ rs.filter (fun r => k = r.key), r.key = k := by
    intro r hr
    simpa [eq_comm] using List.of_mem_filter hr
  match hrs : rs.filter fun r => k = r.key with
  | [] =>
    rw [hrs, List.perm_nil] at hperm
    exact hperm.trans hrs.symm
  | [r] =>
    rw [hrs, List.perm_singleton] at hperm
    exact hperm.trans hrs.symm
  | r :: r' :: rest =>
    rw [hrs] at hapart hsame
    refine absurd ?_ (List.rel_of_pairwise_cons hapart List.mem_cons_self)
    rw [hsame r (by simp), hsame r' (by simp)]

/-- A document that some request has written holds what one of the requests has written. -/
theorem exists_lookup_settle {ι κ ν : Type*} [DecidableEq κ] {fails : ι → Bool} {s : Store κ ν}
    {rs : List (Request ι κ ν)} {k : κ} (h : ∃ r ∈ rs, k = r.key ∧ fails r.label = false) :
    ∃ r ∈ rs, k = r.key ∧ (settle fails s rs).lookup k = r.value := by
  obtain ⟨r, hr, hk⟩ := h
  have hmem : r ∈ effective fails k rs := List.mem_filter.mpr ⟨hr, by simpa using hk⟩
  obtain ⟨last, hlast⟩ := Option.isSome_iff_exists.mp
    (List.getLast?_isSome.mpr (List.ne_nil_of_mem hmem))
  obtain ⟨hl, hkey⟩ := List.mem_filter.mp (List.mem_of_getLast? hlast)
  exact ⟨last, hl, (by simpa using hkey : _ ∧ _).1, by rw [lookup_settle, hlast]⟩

theorem Agree.perform {ι κ ν : Type*} [DecidableEq κ] {fails : ι → Bool} {s t : Store κ ν}
    (h : Agree s t) (r : Request ι κ ν) :
    Agree (DocumentStore.perform fails s r) (DocumentStore.perform fails t r) := by
  intro k
  rw [lookup_perform, lookup_perform, h k]

theorem Agree.settle {ι κ ν : Type*} [DecidableEq κ] {fails : ι → Bool} {s t : Store κ ν}
    (h : Agree s t) (rs : List (Request ι κ ν)) :
    Agree (DocumentStore.settle fails s rs) (DocumentStore.settle fails t rs) := by
  intro k
  rw [lookup_settle, lookup_settle, h k]

/-- Take the first request that satisfies `p` out of the requests in flight,
provided that no earlier one goes to the same document. -/
def extract {ι κ ν : Type*} [DecidableEq κ] (p : Request ι κ ν → Bool) :
    List (Request ι κ ν) → Option (Request ι κ ν × List (Request ι κ ν))
  | [] => none
  | r :: rs =>
    if p r then some (r, rs)
    else match extract p rs with
      | some (q, qs) => if q.key = r.key then none else some (q, r :: qs)
      | none => none

theorem extract_eq_some {ι κ ν : Type*} [DecidableEq κ] {p : Request ι κ ν → Bool}
    {rs qs : List (Request ι κ ν)} {q : Request ι κ ν} (h : extract p rs = some (q, qs)) :
    ∃ pre post, rs = pre ++ q :: post ∧ qs = pre ++ post ∧ p q = true ∧
      ∀ r ∈ pre, r.key ≠ q.key ∧ p r = false := by
  induction rs generalizing q qs with
  | nil => simp [extract] at h
  | cons r rs ih =>
    rw [extract] at h
    by_cases hp : p r = true
    · rw [if_pos hp] at h
      obtain ⟨rfl, rfl⟩ := Prod.mk.inj (Option.some.inj h)
      exact ⟨[], rs, rfl, rfl, hp, by simp⟩
    · rw [if_neg hp] at h
      cases he : extract p rs with
      | none => simp [he] at h
      | some out =>
        obtain ⟨u, us⟩ := out
        simp only [he] at h
        by_cases hk : u.key = r.key
        · simp [hk] at h
        · rw [if_neg hk] at h
          obtain ⟨rfl, rfl⟩ := Prod.mk.inj (Option.some.inj h)
          obtain ⟨pre, post, rfl, rfl, hq, hpre⟩ := ih he
          refine ⟨r :: pre, post, rfl, rfl, hq, fun x hx => ?_⟩
          rcases List.mem_cons.mp hx with rfl | hx
          · exact ⟨Ne.symm hk, by simpa using hp⟩
          · exact hpre x hx

/-- A request may overtake those to other documents. -/
theorem perform_comm {ι κ ν : Type*} [DecidableEq κ] (fails : ι → Bool) (s : Store κ ν)
    {q r : Request ι κ ν} (h : r.key ≠ q.key) :
    Agree (perform fails (perform fails s q) r) (perform fails (perform fails s r) q) := by
  intro k
  simp only [lookup_perform]
  by_cases hr : k = r.key
  · have hq : k ≠ q.key := fun hq => h (hr.symm.trans hq)
    simp [hq]
  · simp [hr]

theorem settle_overtake {ι κ ν : Type*} [DecidableEq κ] (fails : ι → Bool) (s : Store κ ν)
    (pre post : List (Request ι κ ν)) (q : Request ι κ ν) (h : ∀ r ∈ pre, r.key ≠ q.key) :
    Agree (settle fails (perform fails s q) (pre ++ post))
      (settle fails s (pre ++ q :: post)) := by
  induction pre generalizing s with
  | nil => exact Agree.refl _
  | cons r pre ih =>
    simp only [List.cons_append, settle_cons]
    have hr : r.key ≠ q.key := h r List.mem_cons_self
    refine ((perform_comm fails s hr).settle _).trans ?_
    exact ih (perform fails s r) fun x hx => h x (List.mem_cons_of_mem r hx)

/-- An acknowledgement changes the store now and nothing in the end. -/
theorem settle_extract {ι κ ν : Type*} [DecidableEq κ] {fails : ι → Bool} {s : Store κ ν}
    {p : Request ι κ ν → Bool} {rs qs : List (Request ι κ ν)} {q : Request ι κ ν}
    (h : extract p rs = some (q, qs)) :
    Agree (settle fails (perform fails s q) qs) (settle fails s rs) := by
  obtain ⟨pre, post, rfl, rfl, -, hpre⟩ := extract_eq_some h
  exact settle_overtake fails s pre post q fun r hr => (hpre r hr).1

end DocumentStore
