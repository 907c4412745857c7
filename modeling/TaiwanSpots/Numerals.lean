import Mathlib.Algebra.Order.Ring.Int
import Mathlib.Data.Int.Notation
import Mathlib.Data.List.Basic
import Mathlib.Data.Option.Basic
import Mathlib.Tactic.Ring

/-!
# Numerals of bounded integers

A numeral is an optional sign and at least one digit. It is read digit by digit into an
integer between two bounds around zero; a step that leaves the bounds ends the reading.
What is read of a numeral only moves away from zero, so that the reading succeeds
exactly when the number that the numeral denotes lies within the bounds.
-/
namespace Numerals

def isDigit (b : ℕ) (c : Char) : Bool := '0'.toNat ≤ c.toNat && c.toNat < '0'.toNat + b

/-- The integer with this sign and magnitude. -/
def signed (negative : Bool) (n : ℕ) : ℤ := if negative then -n else n

/-- The result of an operation, unless it leaves the bounds. -/
def checked (lo hi n : ℤ) : Option ℤ := if lo ≤ n ∧ n ≤ hi then some n else none

/-- One digit more: a multiplication, then an addition away from zero. -/
def push (b : ℕ) (lo hi : ℤ) (negative : Bool) (n : ℤ) (c : Char) : Option ℤ :=
  if isDigit b c then
    (checked lo hi (n * b)).bind fun m =>
      checked lo hi (m + signed negative (c.toNat - '0'.toNat))
  else none

def scan (b : ℕ) (lo hi : ℤ) (negative : Bool) : ℤ → List Char → Option ℤ
  | n, [] => some n
  | n, c :: cs => (push b lo hi negative n c).bind fun m => scan b lo hi negative m cs

def digits (b : ℕ) (lo hi : ℤ) (negative : Bool) : List Char → Option ℤ
  | [] => none
  | cs => scan b lo hi negative 0 cs

def read (b : ℕ) (lo hi : ℤ) : List Char → Option ℤ
  | '-' :: cs => digits b lo hi true cs
  | '+' :: cs => digits b lo hi false cs
  | cs => digits b lo hi false cs

/-- The characters are a sign, which may be left out when it is positive, and digits. -/
structure Numeral (b : ℕ) (cs : List Char) (negative : Bool) (ds : List Char) : Prop where
  sign : cs = (if negative then '-' else '+') :: ds ∨ negative = false ∧ cs = ds
  nonempty : ds ≠ []
  digits : ∀ c ∈ ds, isDigit b c = true

section
variable {b : ℕ} {lo hi : ℤ} {negative : Bool}

theorem checked_eq_some {n m : ℤ} : checked lo hi n = some m ↔ m = n ∧ lo ≤ m ∧ m ≤ hi := by
  unfold checked
  split_ifs with h
  · simp only [Option.some.injEq, eq_comm (a := n)]
    constructor
    · rintro rfl
      exact ⟨rfl, h⟩
    · exact And.left
  · simp only [false_iff]
    rintro ⟨rfl, hm⟩
    exact h hm

theorem signed_zero : signed negative 0 = 0 := by cases negative <;> rfl

/-- Within bounds around zero, a smaller magnitude stays within them. -/
theorem signed_mem {m n : ℕ} (hlo : lo ≤ 0) (hhi : 0 ≤ hi) (hmn : m ≤ n)
    (h : lo ≤ signed negative n ∧ signed negative n ≤ hi) :
    lo ≤ signed negative m ∧ signed negative m ≤ hi := by
  cases negative <;> simp only [signed, if_true, Bool.false_eq_true, if_false] at h ⊢ <;> omega

theorem signed_push (n d : ℕ) :
    signed negative n * b + signed negative d = signed negative (b * n + d) := by
  cases negative <;> simp only [signed, if_true, Bool.false_eq_true, if_false] <;> push_cast <;>
    ring

/-- The two checks of a step come to one. -/
theorem push_eq_some (hlo : lo ≤ 0) (hhi : 0 ≤ hi) {n : ℕ} {c : Char} {m : ℤ} :
    push b lo hi negative (signed negative n) c = some m ↔
      isDigit b c = true ∧ m = signed negative (b * n + (c.toNat - '0'.toNat)) ∧
        lo ≤ m ∧ m ≤ hi := by
  unfold push
  split_ifs with hc
  · simp only [Option.bind_eq_some_iff, checked_eq_some, hc, true_and]
    constructor
    · rintro ⟨_, ⟨rfl, -⟩, rfl, hm⟩
      rw [signed_push] at hm ⊢
      exact ⟨rfl, hm⟩
    · rintro ⟨rfl, hm⟩
      have hproduct : signed negative n * b = signed negative (b * n) := by
        simpa [signed_zero] using @signed_push b negative n 0
      refine ⟨_, ⟨rfl, ?_⟩, ?_, hm⟩
      · rw [hproduct]
        exact signed_mem hlo hhi (Nat.le_add_right _ _) hm
      · rw [signed_push]
  · simp [hc]

theorem le_ofDigitChars (hb : 0 < b) (cs : List Char) (n : ℕ) : n ≤ Nat.ofDigitChars b cs n := by
  induction cs generalizing n with
  | nil => simp
  | cons c cs ih =>
    rw [Nat.ofDigitChars_cons]
    have hgrow : n ≤ b * n + (c.toNat - '0'.toNat) :=
      (Nat.le_mul_of_pos_left n hb).trans (Nat.le_add_right _ _)
    exact hgrow.trans (ih _)

theorem scan_eq_some (hb : 0 < b) (hlo : lo ≤ 0) (hhi : 0 ≤ hi) {cs : List Char} {n : ℕ} {z : ℤ}
    (hn : lo ≤ signed negative n ∧ signed negative n ≤ hi) :
    scan b lo hi negative (signed negative n) cs = some z ↔
      (∀ c ∈ cs, isDigit b c = true) ∧ z = signed negative (Nat.ofDigitChars b cs n) ∧
        lo ≤ z ∧ z ≤ hi := by
  induction cs generalizing n with
  | nil =>
    simp only [scan, Option.some.injEq, List.not_mem_nil, false_imp_iff, implies_true,
      Nat.ofDigitChars_nil, true_and]
    constructor
    · rintro rfl
      exact ⟨rfl, hn⟩
    · rintro ⟨rfl, -⟩
      rfl
  | cons c cs ih =>
    simp only [scan, Option.bind_eq_some_iff, push_eq_some hlo hhi, List.forall_mem_cons,
      Nat.ofDigitChars_cons]
    constructor
    · rintro ⟨_, ⟨hc, rfl, hm⟩, hscan⟩
      obtain ⟨hcs, hz⟩ := (ih hm).mp hscan
      exact ⟨⟨hc, hcs⟩, hz⟩
    · rintro ⟨⟨hc, hcs⟩, rfl, hz⟩
      have hm := signed_mem hlo hhi (le_ofDigitChars hb cs _) hz
      exact ⟨_, ⟨hc, rfl, hm⟩, (ih hm).mpr ⟨hcs, rfl, hz⟩⟩

theorem digits_eq_some (hb : 0 < b) (hlo : lo ≤ 0) (hhi : 0 ≤ hi) {cs : List Char} {z : ℤ} :
    digits b lo hi negative cs = some z ↔
      cs ≠ [] ∧ (∀ c ∈ cs, isDigit b c = true) ∧
        z = signed negative (Nat.ofDigitChars b cs 0) ∧ lo ≤ z ∧ z ≤ hi := by
  cases cs with
  | nil => simp [digits]
  | cons c cs =>
    have hzero : lo ≤ signed negative 0 ∧ signed negative 0 ≤ hi := by
      rw [signed_zero]
      exact ⟨hlo, hhi⟩
    have h := @scan_eq_some b lo hi negative hb hlo hhi (c :: cs) 0 z hzero
    rw [signed_zero] at h
    simpa [digits] using h

theorem isDigit_minus : isDigit b '-' = false := by simp [isDigit]

theorem isDigit_plus : isDigit b '+' = false := by simp [isDigit]

theorem digits_iff_numeral (hb : 0 < b) (hlo : lo ≤ 0) (hhi : 0 ≤ hi) {cs ds : List Char} {z : ℤ}
    (hsign : cs = (if negative then '-' else '+') :: ds ∨ negative = false ∧ cs = ds)
    (honly : ∀ negative' ds', Numeral b cs negative' ds' → negative' = negative ∧ ds' = ds) :
    digits b lo hi negative ds = some z ↔
      ∃ negative ds, Numeral b cs negative ds ∧
        z = signed negative (Nat.ofDigitChars b ds 0) ∧ lo ≤ z ∧ z ≤ hi := by
  rw [digits_eq_some hb hlo hhi]
  constructor
  · rintro ⟨hne, hds, hz⟩
    exact ⟨negative, ds, ⟨hsign, hne, hds⟩, hz⟩
  · rintro ⟨negative', ds', hnumeral, hz⟩
    obtain ⟨rfl, rfl⟩ := honly _ _ hnumeral
    exact ⟨hnumeral.nonempty, hnumeral.digits, hz⟩

/-- What is read is the number that a numeral denotes, if it lies within the bounds. -/
theorem read_eq_some (hb : 0 < b) (hlo : lo ≤ 0) (hhi : 0 ≤ hi) {cs : List Char} {z : ℤ} :
    read b lo hi cs = some z ↔
      ∃ negative ds, Numeral b cs negative ds ∧
        z = signed negative (Nat.ofDigitChars b ds 0) ∧ lo ≤ z ∧ z ≤ hi := by
  unfold read
  split
  · rename_i ds
    refine digits_iff_numeral hb hlo hhi (.inl rfl) fun negative' ds' h => ?_
    rcases h.sign with hsign | ⟨-, rfl⟩
    · cases negative' <;> simp_all
    · simpa [isDigit_minus] using h.digits '-' (by simp)
  · rename_i ds
    refine digits_iff_numeral hb hlo hhi (.inl rfl) fun negative' ds' h => ?_
    rcases h.sign with hsign | ⟨-, rfl⟩
    · cases negative' <;> simp_all
    · simpa [isDigit_plus] using h.digits '+' (by simp)
  · rename_i hminus hplus
    refine digits_iff_numeral hb hlo hhi (.inr ⟨rfl, rfl⟩) fun negative' ds' h => ?_
    rcases h.sign with hsign | ⟨hpositive, hsign⟩
    · cases negative' with
      | true => exact absurd hsign (hminus ds')
      | false => exact absurd hsign (hplus ds')
    · exact ⟨hpositive, hsign.symm⟩

theorem numeral_toDigits (n : ℕ) : Numeral 10 (Nat.toDigits 10 n) false (Nat.toDigits 10 n) where
  sign := .inr ⟨rfl, rfl⟩
  nonempty := Nat.toDigits_ne_nil
  digits c hc := by
    have h := Nat.isDigit_of_mem_toDigits (by decide) (by decide) hc
    simp only [Char.isDigit, Bool.and_eq_true, decide_eq_true_eq] at h
    simp only [isDigit, Bool.and_eq_true, decide_eq_true_eq]
    exact ⟨UInt32.le_iff_toNat_le.mp h.1, Nat.lt_succ_of_le (UInt32.le_iff_toNat_le.mp h.2)⟩

/-- Every integer within the bounds is read from its decimal text. -/
theorem read_toString (hlo : lo ≤ 0) (hhi : 0 ≤ hi) {n : ℤ} (hn : lo ≤ n ∧ n ≤ hi) :
    read 10 lo hi (toString n).toList = some n := by
  rw [read_eq_some (by decide) hlo hhi]
  cases n with
  | ofNat n =>
    refine ⟨false, Nat.toDigits 10 n, ?_, ?_, hn⟩
    · have htext : (toString (Int.ofNat n)).toList = Nat.toDigits 10 n := Nat.toList_repr
      rw [htext]
      exact numeral_toDigits n
    · simp [signed, Nat.ofDigitChars_ten_toDigits]
  | negSucc n =>
    refine ⟨true, Nat.toDigits 10 (n + 1), ⟨.inl ?_, Nat.toDigits_ne_nil,
      (numeral_toDigits _).digits⟩, ?_, hn⟩
    · simp [Int.repr]
    · simp [signed, Nat.ofDigitChars_ten_toDigits, Int.negSucc_eq]

end

end Numerals
