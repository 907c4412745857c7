import Mathlib.Computability.RegularExpressions

/-!
# Classes and bounded repetition

Patterns are written with more than the operators of Kleene: a class of symbols,
one occurrence or more, a number of occurrences between two bounds. A repeated
class matches the words over it of the right lengths, so that a pattern built from
classes and symbols is decided by how a word can be cut.
-/
namespace RegularExpression

/-- `[...]`, with the symbols listed. -/
def oneOf {α : Type*} : List α → RegularExpression α
  | [] => 0
  | a :: as => char a + oneOf as

/-- `r+` -/
def oneOrMore {α : Type*} (r : RegularExpression α) : RegularExpression α := r * star r

/-- `r{m,n}` -/
def between {α : Type*} (r : RegularExpression α) (m n : ℕ) : RegularExpression α :=
  r ^ m * (1 + r) ^ (n - m)

theorem mem_oneOf {α : Type*} {as x : List α} :
    x ∈ (oneOf as).matches' ↔ ∃ a ∈ as, x = [a] := by
  induction as with
  | nil =>
    simp only [oneOf, List.not_mem_nil, false_and, exists_false, iff_false]
    exact Language.notMem_zero x
  | cons a as ih =>
    rw [oneOf, matches'_add, Language.mem_add, ih, matches'_char]
    simp only [List.mem_cons, exists_eq_or_imp]
    exact Iff.rfl

theorem cons_mem_char_mul {α : Type*} {a : α} {r : RegularExpression α} {x : List α} :
    x ∈ (char a * r).matches' ↔ ∃ y ∈ r.matches', x = a :: y := by
  rw [matches'_mul, Language.mem_mul]
  constructor
  · rintro ⟨z, hz, y, hy, rfl⟩
    obtain rfl : z = [a] := hz
    exact ⟨y, hy, rfl⟩
  · rintro ⟨y, hy, rfl⟩
    exact ⟨[a], rfl, y, hy, rfl⟩

/-- Words over a class are the flattened lists of its one-symbol words. -/
theorem flatten_of_mem_oneOf {α : Type*} {as : List α} {xs : List (List α)}
    (h : ∀ x ∈ xs, x ∈ (oneOf as).matches') :
    xs.flatten.length = xs.length ∧ ∀ a ∈ xs.flatten, a ∈ as := by
  induction xs with
  | nil => simp
  | cons x xs ih =>
    obtain ⟨a, ha, rfl⟩ := mem_oneOf.mp (h x (by simp))
    obtain ⟨hlength, hall⟩ := ih fun y hy => h y (by simp [hy])
    refine ⟨by simp [hlength], fun b hb => ?_⟩
    rcases List.mem_cons.mp hb with rfl | hb
    · exact ha
    · exact hall b hb

theorem map_singleton_mem_oneOf {α : Type*} {as x : List α} (h : ∀ a ∈ x, a ∈ as) :
    ∀ y ∈ x.map ([·]), y ∈ (oneOf as).matches' := by
  intro y hy
  obtain ⟨a, ha, rfl⟩ := List.mem_map.mp hy
  exact mem_oneOf.mpr ⟨a, h a ha, rfl⟩

theorem flatten_map_singleton {α : Type*} (x : List α) : (x.map ([·])).flatten = x := by
  induction x with
  | nil => rfl
  | cons a x ih => simp [ih]

theorem mem_star_oneOf {α : Type*} {as x : List α} :
    x ∈ (star (oneOf as)).matches' ↔ ∀ a ∈ x, a ∈ as := by
  rw [matches'_star, Language.mem_kstar]
  constructor
  · rintro ⟨xs, rfl, hxs⟩
    exact (flatten_of_mem_oneOf hxs).2
  · intro h
    exact ⟨x.map ([·]), (flatten_map_singleton x).symm, map_singleton_mem_oneOf h⟩

theorem mem_pow_oneOf {α : Type*} {as x : List α} {n : ℕ} :
    x ∈ (oneOf as ^ n).matches' ↔ x.length = n ∧ ∀ a ∈ x, a ∈ as := by
  rw [matches'_pow, Language.mem_pow]
  constructor
  · rintro ⟨xs, rfl, rfl, hxs⟩
    exact flatten_of_mem_oneOf hxs
  · rintro ⟨rfl, h⟩
    exact ⟨x.map ([·]), (flatten_map_singleton x).symm, by simp, map_singleton_mem_oneOf h⟩

theorem mem_oneOrMore_oneOf {α : Type*} {as x : List α} :
    x ∈ (oneOrMore (oneOf as)).matches' ↔ x ≠ [] ∧ ∀ a ∈ x, a ∈ as := by
  rw [oneOrMore, matches'_mul, Language.mem_mul]
  constructor
  · rintro ⟨y, hy, z, hz, rfl⟩
    obtain ⟨a, ha, rfl⟩ := mem_oneOf.mp hy
    refine ⟨by simp, fun b hb => ?_⟩
    rcases List.mem_cons.mp hb with rfl | hb
    · exact ha
    · exact mem_star_oneOf.mp hz b hb
  · rintro ⟨hne, h⟩
    obtain ⟨a, y, rfl⟩ := List.exists_cons_of_ne_nil hne
    exact ⟨[a], mem_oneOf.mpr ⟨a, h a (by simp), rfl⟩, y,
      mem_star_oneOf.mpr fun b hb => h b (by simp [hb]), rfl⟩

theorem mem_pow_optional_oneOf {α : Type*} {as x : List α} {n : ℕ} :
    x ∈ ((1 + oneOf as) ^ n).matches' ↔ x.length ≤ n ∧ ∀ a ∈ x, a ∈ as := by
  induction n generalizing x with
  | zero =>
    rw [matches'_pow, pow_zero, Language.mem_one]
    constructor
    · rintro rfl
      simp
    · rintro ⟨h, -⟩
      exact List.length_eq_zero_iff.mp (by omega)
  | succ n ih =>
    rw [matches'_pow, pow_succ', Language.mem_mul, ← matches'_pow]
    simp only [ih, matches'_add, Language.mem_add, matches'_epsilon, Language.mem_one, mem_oneOf]
    constructor
    · rintro ⟨y, rfl | ⟨a, ha, rfl⟩, z, ⟨hlength, hz⟩, rfl⟩
      · exact ⟨by simp; omega, hz⟩
      · refine ⟨by simp; omega, fun b hb => ?_⟩
        rcases List.mem_cons.mp hb with rfl | hb
        · exact ha
        · exact hz b hb
    · rintro ⟨hlength, h⟩
      cases x with
      | nil => exact ⟨[], .inl rfl, [], by simp, rfl⟩
      | cons a x =>
        refine ⟨[a], .inr ⟨a, h a (by simp), rfl⟩, x, ⟨?_, fun b hb => h b (by simp [hb])⟩, rfl⟩
        simpa using hlength

theorem mem_between_oneOf {α : Type*} {as x : List α} {m n : ℕ} (hmn : m ≤ n) :
    x ∈ (between (oneOf as) m n).matches' ↔
      m ≤ x.length ∧ x.length ≤ n ∧ ∀ a ∈ x, a ∈ as := by
  rw [between, matches'_mul, Language.mem_mul]
  simp only [mem_pow_oneOf, mem_pow_optional_oneOf]
  constructor
  · rintro ⟨y, ⟨rfl, hy⟩, z, ⟨hlength, hz⟩, rfl⟩
    refine ⟨by simp, by simp; omega, fun a ha => ?_⟩
    rcases List.mem_append.mp ha with ha | ha
    · exact hy a ha
    · exact hz a ha
  · rintro ⟨hleast, hmost, h⟩
    refine ⟨x.take m, ⟨by simpa using hleast, fun a ha => h a (List.mem_of_mem_take ha)⟩,
      x.drop m, ⟨?_, fun a ha => h a (List.mem_of_mem_drop ha)⟩, List.take_append_drop m x⟩
    rw [List.length_drop]
    omega

end RegularExpression
