import Mathlib.Data.List.Infix
import Mathlib.Logic.Basic

/-!
# References to documents

A document is found by its collection and its ID. `document(_:)` does not take an ID but a
path: it is cut at the slashes, and a slash at its start or end counts for nothing, so that
different strings lead to one document. Three segments lead to a document of a subcollection.
A path with an even number of segments or with an empty one in its middle raises.
-/
namespace TaiwanSpots

/-- The collections `Users`, `Spots` and `Cities`, and those below a document. -/
inductive Collection where
  | users
  | spots
  | cities
  | sub (parent : Collection) (documentID collectionID : String)
  deriving DecidableEq, Repr

structure DocumentReference where
  collection : Collection
  documentID : String
  deriving DecidableEq, Repr

/-- The segments of a path that are not empty. -/
def segments (path : String) : List String :=
  ((path.toList.splitOn '/').filter fun segment => segment ≠ []).map String.ofList

namespace Collection

/-- Follow the segments of a path; an even number of them ends at a collection. -/
def descend : Collection → List String → Option DocumentReference
  | _, [] => none
  | c, [documentID] => some ⟨c, documentID⟩
  | c, documentID :: collectionID :: path => (c.sub documentID collectionID).descend path

/-- `document(_:)` of a collection; `none` when it raises. -/
def document (c : Collection) (path : String) : Option DocumentReference :=
  if ['/', '/'] <:+: path.toList then none else c.descend (segments path)

/-- The collection at the start of the path to a collection. -/
def root : Collection → Collection
  | sub parent _ _ => parent.root
  | users => users
  | spots => spots
  | cities => cities

end Collection

/-- The IDs that a document can have. -/
def ValidDocumentID (id : String) : Prop := id ≠ "" ∧ '/' ∉ id.toList

instance (id : String) : Decidable (ValidDocumentID id) := inferInstanceAs (Decidable (_ ∧ _))

theorem segments_of_valid {id : String} (h : ValidDocumentID id) : segments id = [id] := by
  have hsplit : id.toList.splitOn '/' = [id.toList] :=
    List.splitOnP_eq_singleton fun c hc => by
      simpa using fun heq : c = '/' => h.2 (heq ▸ hc)
  simp [segments, hsplit, h.1]

/-- An ID leads to the document that has it. -/
theorem document_of_valid {c : Collection} {id : String} (h : ValidDocumentID id) :
    c.document id = some ⟨c, id⟩ := by
  have hinfix : ¬ ['/', '/'] <:+: id.toList := fun hin => h.2 (hin.subset (by simp))
  rw [Collection.document, if_neg hinfix, segments_of_valid h, Collection.descend]

theorem root_of_descend {c : Collection} {path : List String} {ref : DocumentReference}
    (h : c.descend path = some ref) : ref.collection.root = c.root := by
  fun_induction Collection.descend c path with
  | case1 c => cases h
  | case2 c id =>
    obtain rfl := Option.some.inj h
    rfl
  | case3 c id name path ih => exact ih h

/-- A path never leaves the collection at its start. -/
theorem root_of_document {c : Collection} {path : String} {ref : DocumentReference}
    (h : c.document path = some ref) : ref.collection.root = c.root := by
  unfold Collection.document at h
  split_ifs at h
  exact root_of_descend h

theorem root_of_documents {c : Collection} {paths : List String} {refs : List DocumentReference}
    (h : paths.map c.document = refs.map some) {ref : DocumentReference} (hmem : ref ∈ refs) :
    ref.collection.root = c.root := by
  have hpath : some ref ∈ paths.map c.document := h ▸ List.mem_map_of_mem hmem
  obtain ⟨path, -, href⟩ := List.mem_map.mp hpath
  exact root_of_document href

end TaiwanSpots
