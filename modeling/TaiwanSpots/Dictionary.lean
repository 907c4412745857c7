import Mathlib.Algebra.Group.Int.Defs
import Mathlib.Algebra.Group.Nat.Defs
import Mathlib.Data.List.Basic
import Mathlib.Data.Int.Notation
import Mathlib.Data.Option.Basic

/-!
# Untyped values and dictionaries

Firestore documents and the downloaded feed both reach the app as dictionaries
of type `[String: Any]`. The functions below are the conditional casts that the
app applies to them. Numbers arrive as `NSNumber`, whose bridging to `Double`
and `Bool` succeeds exactly when the value is represented without loss.
-/
namespace TaiwanSpots

/-- An IEEE double by its bits. The app stores and copies doubles and never
computes with them. -/
structure Double where
  bits : BitVec 64
  deriving DecidableEq, Repr

/-- `Double(exactly:)` on an integer. -/
def Double.exactly (n : ℤ) : Option Double :=
  let m := n.natAbs
  let e := Nat.log2 m
  if m = 0 then some ⟨0⟩
  else if 52 < e ∧ m % 2 ^ (e - 52) ≠ 0 then none
  else
    let significand := if e ≤ 52 then m * 2 ^ (52 - e) else m / 2 ^ (e - 52)
    let sign := if n < 0 then 2 ^ 63 else 0
    some ⟨BitVec.ofNat 64 (sign + (e + 1023) * 2 ^ 52 + (significand - 2 ^ 52))⟩

example : Double.exactly (-2) = some ⟨0xC000000000000000⟩ := by decide

inductive Any where
  | null
  | bool (value : Bool)
  | integer (value : ℤ)
  | double (value : Double)
  | string (value : String)
  | array (elements : List Any)
  | dictionary (entries : List (String × Any))

abbrev Dictionary := List (String × Any)

namespace Any

/-- `as? String` -/
def asString : Any → Option String
  | .string s => some s
  | _ => none

/-- `as? Double` -/
def asDouble : Any → Option Double
  | .double x => some x
  | .integer n => Double.exactly n
  | .bool b => Double.exactly (if b then 1 else 0)
  | _ => none

/-- `as? Bool`. A number bridges when it equals zero or one. -/
def asBool : Any → Option Bool
  | .bool b => some b
  | .integer n => if n = 0 then some false else if n = 1 then some true else none
  | .double x =>
    if x.bits = 0 ∨ x.bits = 0x8000000000000000 then some false
    else if some x = Double.exactly 1 then some true
    else none
  | _ => none

/-- `as? [String: Any]` -/
def asDictionary : Any → Option Dictionary
  | .dictionary d => some d
  | _ => none

/-- `as? [String]` -/
def asStrings : Any → Option (List String)
  | .array xs => xs.mapM asString
  | _ => none

/-- `as? [[String: Any]]` -/
def asDictionaries : Any → Option (List Dictionary)
  | .array xs => xs.mapM asDictionary
  | _ => none

@[simp] theorem asStrings_map_string (ids : List String) :
    (Any.array (ids.map .string)).asStrings = some ids := by
  induction ids with
  | nil => rfl
  | cons id ids ih =>
    simp only [asStrings] at ih
    simp [asStrings, asString, ih]

end Any

namespace Dictionary

/-! The subscript followed by a conditional cast. -/

def string (d : Dictionary) (key : String) : Option String := (d.lookup key).bind Any.asString

def double (d : Dictionary) (key : String) : Option Double := (d.lookup key).bind Any.asDouble

def bool (d : Dictionary) (key : String) : Option Bool := (d.lookup key).bind Any.asBool

def strings (d : Dictionary) (key : String) : Option (List String) :=
  (d.lookup key).bind Any.asStrings

def dictionary (d : Dictionary) (key : String) : Option Dictionary :=
  (d.lookup key).bind Any.asDictionary

def dictionaries (d : Dictionary) (key : String) : Option (List Dictionary) :=
  (d.lookup key).bind Any.asDictionaries

/-- The effect of `updateData`: the given fields replace those of the document. -/
def merge (d data : Dictionary) : Dictionary :=
  data ++ d.filter fun field => (data.lookup field.1).isNone

theorem lookup_merge (d data : Dictionary) (key : String) :
    (merge d data).lookup key = (data.lookup key).or (d.lookup key) := by
  rw [merge, List.lookup_append]
  cases hd : data.lookup key with
  | some v => simp
  | none =>
    simp only [Option.none_or]
    induction d with
    | nil => rfl
    | cons field d ih =>
      obtain ⟨name, value⟩ := field
      by_cases hk : key = name
      · subst hk
        simp [hd]
      · have hne : (key == name) = false := by simpa using hk
        rw [List.filter_cons]
        split_ifs <;> simp [List.lookup_cons, hne, ih]

end Dictionary

end TaiwanSpots
