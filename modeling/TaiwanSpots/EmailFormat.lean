import Mathlib.Data.List.TakeWhile
import TaiwanSpots.RegularExpressions

/-!
# Which addresses `validateEmail` accepts

The class of the host contains the point, so that the expression can cut an
address in front of any of its points. Letters follow in the end, hence only the
cut at the last point can match.
-/
namespace TaiwanSpots.EmailFormat
open RegularExpression

/-- A range of characters in a class. -/
def range (first last : Char) : List Char :=
  ((List.range' first.toNat (last.toNat + 1 - first.toNat)).map Char.ofNat).filter fun c =>
    first ≤ c ∧ c ≤ last

/-- `[A-Z0-9a-z._%+-]` -/
def localClass : List Char :=
  range 'A' 'Z' ++ range '0' '9' ++ range 'a' 'z' ++ ['.', '_', '%', '+', '-']

/-- `[A-Za-z0-9.-]` -/
def hostClass : List Char :=
  range 'A' 'Z' ++ range 'a' 'z' ++ range '0' '9' ++ ['.', '-']

/-- `[A-Za-z]` -/
def letterClass : List Char := range 'A' 'Z' ++ range 'a' 'z'

/-- `[A-Z0-9a-z._%+-]+@[A-Za-z0-9.-]+\.[A-Za-z]{2,64}` -/
def emailFormat : RegularExpression Char :=
  oneOrMore (oneOf localClass) * (char '@' * (oneOrMore (oneOf hostClass) *
    (char '.' * between (oneOf letterClass) 2 64)))

/-- `SELF MATCHES emailFormat` -/
def validateEmail (text : String) : Bool := emailFormat.rmatch text.toList

theorem mem_range {first last c : Char} : c ∈ range first last ↔ first ≤ c ∧ c ≤ last := by
  simp only [range, List.mem_filter, List.mem_map, List.mem_range'_1, decide_eq_true_eq]
  constructor
  · rintro ⟨-, h⟩
    exact h
  · rintro ⟨hfirst, hlast⟩
    refine ⟨⟨c.toNat, ⟨hfirst, ?_⟩, Char.ofNat_toNat c⟩, hfirst, hlast⟩
    have hlower : first.toNat ≤ c.toNat := hfirst
    have hupper : c.toNat ≤ last.toNat := hlast
    omega

theorem mem_letterClass {c : Char} : c ∈ letterClass ↔ c.isAlpha = true := by
  have hletter : c.isAlpha = (decide ('A'.val ≤ c.val ∧ c.val ≤ 'Z'.val) ||
      (decide ('a'.val ≤ c.val) && decide (c.val ≤ 'z'.val))) := rfl
  rw [hletter, letterClass, List.mem_append, mem_range, mem_range, Bool.or_eq_true,
    decide_eq_true_iff, Bool.and_eq_true, decide_eq_true_iff, decide_eq_true_iff]
  rfl

theorem mem_range_digits {c : Char} : c ∈ range '0' '9' ↔ c.isDigit = true := by
  simp [mem_range, Char.isDigit, Char.le_def]

theorem mem_hostClass {c : Char} :
    c ∈ hostClass ↔ c.isAlpha = true ∨ c.isDigit = true ∨ c ∈ ['.', '-'] := by
  rw [← mem_letterClass, ← mem_range_digits]
  simp only [hostClass, letterClass, List.mem_append, or_assoc]

theorem mem_localClass {c : Char} :
    c ∈ localClass ↔ c.isAlpha = true ∨ c.isDigit = true ∨ c ∈ ['.', '_', '%', '+', '-'] := by
  rw [← mem_letterClass, ← mem_range_digits]
  simp only [localClass, letterClass, List.mem_append]
  tauto

/-- A way to cut an address as the expression asks for. -/
def Cut (x : List Char) : Prop :=
  ∃ name host letters, x = name ++ '@' :: (host ++ '.' :: letters) ∧
    (name ≠ [] ∧ ∀ c ∈ name, c ∈ localClass) ∧ (host ≠ [] ∧ ∀ c ∈ host, c ∈ hostClass) ∧
    2 ≤ letters.length ∧ letters.length ≤ 64 ∧ ∀ c ∈ letters, c ∈ letterClass

theorem validateEmail_iff_cut {text : String} : validateEmail text = true ↔ Cut text.toList := by
  rw [validateEmail, rmatch_iff_matches', emailFormat, matches'_mul, Language.mem_mul]
  simp only [cons_mem_char_mul, mem_oneOrMore_oneOf]
  constructor
  · rintro ⟨name, hname, rest, ⟨domain, hdomain, rfl⟩, htext⟩
    rw [matches'_mul, Language.mem_mul] at hdomain
    obtain ⟨host, hhost, rest, hrest, rfl⟩ := hdomain
    obtain ⟨letters, hletters, rfl⟩ := cons_mem_char_mul.mp hrest
    exact ⟨name, host, letters, htext.symm, hname, mem_oneOrMore_oneOf.mp hhost,
      (mem_between_oneOf (by omega)).mp hletters⟩
  · rintro ⟨name, host, letters, htext, hname, hhost, hletters⟩
    refine ⟨name, hname, _, ⟨host ++ '.' :: letters, ?_, rfl⟩, htext.symm⟩
    rw [matches'_mul, Language.mem_mul]
    exact ⟨host, mem_oneOrMore_oneOf.mpr hhost, _,
      cons_mem_char_mul.mpr ⟨letters, (mem_between_oneOf (by omega)).mpr hletters, rfl⟩, rfl⟩

/-! Cutting a text at the first occurrence of a character. -/

theorem forall_ne_of_not_mem {a : Char} {x : List Char} (h : a ∉ x) :
    ∀ b ∈ x, (b != a) = true := by
  intro b hb
  rw [bne_iff_ne]
  rintro rfl
  exact h hb

theorem takeWhile_cut {a : Char} {x y : List Char} (h : a ∉ x) :
    (x ++ a :: y).takeWhile (· != a) = x := by
  rw [List.takeWhile_append_of_pos (forall_ne_of_not_mem h)]
  simp

theorem dropWhile_cut {a : Char} {x y : List Char} (h : a ∉ x) :
    (x ++ a :: y).dropWhile (· != a) = a :: y := by
  rw [List.dropWhile_append_of_pos (forall_ne_of_not_mem h)]
  simp

/-- A character that occurs cuts the text in two. -/
theorem cut_of_mem {a : Char} {x : List Char} (h : a ∈ x) :
    ∃ y, x.dropWhile (· != a) = a :: y ∧ x = x.takeWhile (· != a) ++ a :: y := by
  induction x with
  | nil => cases h
  | cons b x ih =>
    by_cases hb : b = a
    · subst hb
      exact ⟨x, by simp, by simp⟩
    · have hne : (b != a) = true := bne_iff_ne.mpr hb
      obtain ⟨y, hdrop, hx⟩ := ih ((List.mem_cons.mp h).resolve_left (Ne.symm hb))
      refine ⟨y, by rw [List.dropWhile_cons, if_pos hne, hdrop], ?_⟩
      rw [List.takeWhile_cons, if_pos hne, List.cons_append, ← hx]

/-- The part in front of the first `@`. -/
def beforeAt (x : List Char) : List Char := x.takeWhile (· != '@')

/-- The part behind the first `@`. -/
def afterAt (x : List Char) : List Char := (x.dropWhile (· != '@')).tail

/-- The part in front of the last point. -/
def beforeLastPoint (x : List Char) : List Char := (x.reverse.dropWhile (· != '.')).tail.reverse

/-- The part behind the last point. -/
def afterLastPoint (x : List Char) : List Char := (x.reverse.takeWhile (· != '.')).reverse

/-- One `@`, in front of it a name, behind it a host whose last point is followed by
between 2 and 64 letters. -/
structure WellFormed (x : List Char) : Prop where
  oneAt : x.count '@' = 1
  name_ne : beforeAt x ≠ []
  name : ∀ c ∈ beforeAt x, c.isAlpha = true ∨ c.isDigit = true ∨ c ∈ ['.', '_', '%', '+', '-']
  point : '.' ∈ afterAt x
  host_ne : beforeLastPoint (afterAt x) ≠ []
  host : ∀ c ∈ beforeLastPoint (afterAt x),
    c.isAlpha = true ∨ c.isDigit = true ∨ c ∈ ['.', '-']
  least : 2 ≤ (afterLastPoint (afterAt x)).length
  most : (afterLastPoint (afterAt x)).length ≤ 64
  letters : ∀ c ∈ afterLastPoint (afterAt x), c.isAlpha = true

theorem lastPoint_cut {x y : List Char} (h : '.' ∉ y) :
    beforeLastPoint (x ++ '.' :: y) = x ∧ afterLastPoint (x ++ '.' :: y) = y := by
  have hreverse : (x ++ '.' :: y).reverse = y.reverse ++ '.' :: x.reverse := by simp
  have hy : '.' ∉ y.reverse := by simpa using h
  rw [beforeLastPoint, afterLastPoint, hreverse, dropWhile_cut hy, takeWhile_cut hy]
  simp

theorem lastPoint_of_mem {x : List Char} (h : '.' ∈ x) :
    x = beforeLastPoint x ++ '.' :: afterLastPoint x := by
  obtain ⟨y, hdrop, hx⟩ := cut_of_mem (List.mem_reverse.mpr h)
  rw [beforeLastPoint, afterLastPoint, hdrop, List.tail_cons]
  rw [List.reverse_eq_iff] at hx
  conv_lhs => rw [hx]
  simp

/-- A well-formed address is cut at its `@` and at its last point. -/
theorem WellFormed.cut {x : List Char} (h : WellFormed x) : Cut x := by
  have hat : '@' ∈ x := List.count_pos_iff.mp (by have := h.oneAt; omega)
  obtain ⟨y, hdrop, hx⟩ := cut_of_mem hat
  have hafter : afterAt x = y := by rw [afterAt, hdrop, List.tail_cons]
  refine ⟨beforeAt x, beforeLastPoint (afterAt x), afterLastPoint (afterAt x), ?_,
    ⟨h.name_ne, fun c hc => mem_localClass.mpr (h.name c hc)⟩,
    ⟨h.host_ne, fun c hc => mem_hostClass.mpr (h.host c hc)⟩, h.least, h.most,
    fun c hc => mem_letterClass.mpr (h.letters c hc)⟩
  rw [← lastPoint_of_mem h.point, hafter]
  exact hx

/-- The classes leave one place for the `@` and one for the last point. -/
theorem Cut.wellFormed {x : List Char} (h : Cut x) : WellFormed x := by
  obtain ⟨name, host, letters, rfl, hname, hhost, hleast, hmost, hletters⟩ := h
  have hname' : '@' ∉ name := fun h => by simpa using mem_localClass.mp (hname.2 _ h)
  have hhost' : '@' ∉ host := fun h => by simpa using mem_hostClass.mp (hhost.2 _ h)
  have hletters' : '@' ∉ letters := fun h => by simpa using mem_letterClass.mp (hletters _ h)
  have hpoint : '.' ∉ letters := fun h => by simpa using mem_letterClass.mp (hletters _ h)
  have hbefore : beforeAt (name ++ '@' :: (host ++ '.' :: letters)) = name :=
    takeWhile_cut hname'
  have hafter : afterAt (name ++ '@' :: (host ++ '.' :: letters)) = host ++ '.' :: letters := by
    rw [afterAt, dropWhile_cut hname', List.tail_cons]
  obtain ⟨hfront, hback⟩ := lastPoint_cut (x := host) hpoint
  refine ⟨?_, ?_, ?_, ?_, ?_, ?_, ?_, ?_, ?_⟩
  · simp [List.count_eq_zero.mpr hname', List.count_eq_zero.mpr hhost',
      List.count_eq_zero.mpr hletters']
  · rw [hbefore]
    exact hname.1
  · rw [hbefore]
    exact fun c hc => mem_localClass.mp (hname.2 c hc)
  · rw [hafter]
    simp
  · rw [hafter, hfront]
    exact hhost.1
  · rw [hafter, hfront]
    exact fun c hc => mem_hostClass.mp (hhost.2 c hc)
  · rw [hafter, hback]
    exact hleast
  · rw [hafter, hback]
    exact hmost
  · rw [hafter, hback]
    exact fun c hc => mem_letterClass.mp (hletters c hc)

/-- What `validateEmail` accepts. -/
theorem validateEmail_iff (text : String) :
    validateEmail text = true ↔ WellFormed text.toList := by
  rw [validateEmail_iff_cut]
  exact ⟨Cut.wellFormed, WellFormed.cut⟩

end TaiwanSpots.EmailFormat
