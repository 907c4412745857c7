import TaiwanSpots.DocumentPath
import TaiwanSpots.DocumentStore
import TaiwanSpots.Spot

/-!
# Firestore and the functions of `API`

The database is one store keyed by document references. Each function of `API`
below is the synchronous part that one callback executes: how often it enters its
group, the requests it issues, in issue order, and the value it passes on. A path
that raises ends the app in the middle of a loop. The label of a request names the
loop iteration that issued it, so that no two requests of one rebuild share a label.
-/
namespace TaiwanSpots
open DocumentStore

abbrev Firestore := Store DocumentReference Dictionary

/-- `getDocuments` on a collection: every document with its ID. -/
def Firestore.documents (db : Firestore) (c : Collection) : List (String × Dictionary) :=
  db.entries.filterMap fun entry =>
    if entry.1.collection = c then some (entry.1.documentID, entry.2) else none

theorem Firestore.mem_documents {db : Firestore} {c : Collection} {id : String}
    {data : Dictionary} : (id, data) ∈ db.documents c ↔ db.lookup ⟨c, id⟩ = some data := by
  rw [← Option.mem_def, AList.mem_lookup_iff, Firestore.documents, List.mem_filterMap]
  constructor
  · rintro ⟨⟨⟨c', id'⟩, data'⟩, hm, he⟩
    split_ifs at he with hc
    simp only at hc
    obtain ⟨rfl, rfl⟩ := Prod.mk.inj (Option.some.inj he)
    exact hc ▸ hm
  · intro hm
    exact ⟨_, hm, by simp⟩

/-- A write of another client; `none` deletes the document. -/
def Firestore.write (db : Firestore) (ref : DocumentReference) : Option Dictionary → Firestore
  | some data => db.insert ref data
  | none => db.erase ref

theorem Firestore.entries_erase (db : Firestore) (ref : DocumentReference) :
    AList.entries (db.erase ref) = List.kerase ref db.entries := rfl

theorem Firestore.documents_erase (db : Firestore) (ref : DocumentReference) (c : Collection) :
    Firestore.documents (db.erase ref) c =
      (db.documents c).eraseP fun document => (⟨c, document.1⟩ : DocumentReference) = ref := by
  simp only [Firestore.documents, entries_erase]
  induction db.entries with
  | nil => rfl
  | cons entry entries ih =>
    obtain ⟨⟨c', id⟩, data⟩ := entry
    by_cases href : ref = ⟨c', id⟩
    · subst href
      by_cases hc : c' = c
      · simp [hc]
      · rw [List.filterMap_cons_none (by simp [hc]), List.eraseP_of_forall_not]
        · simp
        · simp [Ne.symm hc]
    · by_cases hc : c' = c
      · subst hc
        simp [ih, href, Ne.symm href]
      · simpa [hc, href] using ih

theorem Firestore.documents_insert (db : Firestore) (ref : DocumentReference) (data : Dictionary)
    (c : Collection) : Firestore.documents (db.insert ref data) c =
      (if ref.collection = c then [(ref.documentID, data)] else []) ++
        Firestore.documents (db.erase ref) c := by
  simp only [Firestore.documents, AList.entries_insert, entries_erase]
  split_ifs with hc <;> simp [hc]

/-- A document of another collection is not listed. -/
theorem Firestore.documents_insert_of_ne {db : Firestore} {ref : DocumentReference}
    {data : Dictionary} {c : Collection} (h : ref.collection ≠ c) :
    Firestore.documents (db.insert ref data) c = db.documents c := by
  rw [documents_insert, if_neg h, List.nil_append, documents_erase, List.eraseP_of_forall_not]
  rintro document - heq
  exact h (congrArg DocumentReference.collection (of_decide_eq_true heq)).symm

/-- The listing of a collection decides what its listing becomes. -/
theorem Firestore.documents_write {db db' : Firestore} {c : Collection}
    (h : db.documents c = db'.documents c) (ref : DocumentReference) (data : Option Dictionary) :
    (db.write ref data).documents c = (db'.write ref data).documents c := by
  cases data with
  | some data => simp only [write, documents_insert, documents_erase, h]
  | none => simp only [write, documents_erase, h]

theorem Firestore.lookup_of_documents {db db' : Firestore} {c : Collection}
    (h : db.documents c = db'.documents c) (id : String) :
    db.lookup ⟨c, id⟩ = db'.lookup ⟨c, id⟩ := by
  ext data
  rw [← mem_documents, ← mem_documents, h]

/-- `updateData` fails on a missing document. -/
def Firestore.updateData (db : Firestore) (ref : DocumentReference) (data : Dictionary) :
    Option Firestore :=
  (db.lookup ref).map fun d => db.insert ref (d.merge data)

/-- How `getDocument` calls back. A document that does not exist is no error. -/
inductive Reply where
  | error
  | snapshot (data : Option Dictionary)

/-- What the server answers to `getDocument`, when it answers at all. -/
def Firestore.getDocument (db : Firestore) (ref : DocumentReference) (ok : Bool) : Reply :=
  if ok then .snapshot (db.lookup ref) else .error

theorem Firestore.getDocument_eq_some {db : Firestore} {ref : DocumentReference} {ok : Bool}
    {data : Dictionary} (h : db.getDocument ref ok = .snapshot (some data)) :
    ok = true ∧ db.lookup ref = some data := by
  unfold Firestore.getDocument at h
  split_ifs at h with hok
  exact ⟨hok, Reply.snapshot.inj h⟩

/-- The document that a path of the collection `Spots` leads to. -/
def Firestore.spotDocument (db : Firestore) (path : String) : Option Dictionary :=
  (Collection.spots.document path).bind fun ref => db.lookup ref

def userRef (uid : String) : DocumentReference := ⟨.users, uid⟩

/-- The loop iteration that issued a request. -/
inductive Label where
  | deleteSpot (documentID : String)
  | deleteCity (documentID : String)
  | setSpot (index : ℕ)
  | setCity (city : CityEnum)
  deriving DecidableEq, Repr

abbrev WriteRequest := Request Label DocumentReference Dictionary

/-- What a pass of a loop does: `dispatchGroup.enter()`, or a request. -/
inductive Statement where
  | enter
  | issue (r : WriteRequest)

def Statement.request : Statement → Option WriteRequest
  | .enter => none
  | .issue r => some r

/-- What a loop has done when it ends, or when a path raises in it. -/
structure Loop where
  statements : List Statement
  trapped : Bool

namespace Loop

def requests (l : Loop) : List WriteRequest := l.statements.filterMap Statement.request

/-- How often the loop has entered its group. -/
def entered (l : Loop) : ℕ := l.statements.countP fun statement => statement.request.isNone

def done : Loop := ⟨[], false⟩

def trap : Loop := ⟨[], true⟩

/-- `dispatchGroup.enter()` before the rest of the loop. -/
def enter (rest : Loop) : Loop := { rest with statements := .enter :: rest.statements }

/-- A request before the rest of the loop. -/
def issue (rest : Loop) (r : WriteRequest) : Loop :=
  { rest with statements := .issue r :: rest.statements }

/-- Another loop, unless this one traps. -/
def followedBy (first second : Loop) : Loop :=
  if first.trapped then first else ⟨first.statements ++ second.statements, second.trapped⟩

@[simp] theorem requests_done : done.requests = [] := rfl

@[simp] theorem requests_trap : trap.requests = [] := rfl

@[simp] theorem requests_enter (l : Loop) : l.enter.requests = l.requests := rfl

@[simp] theorem requests_issue (l : Loop) (r : WriteRequest) :
    (l.issue r).requests = r :: l.requests := rfl

@[simp] theorem entered_enter (l : Loop) : l.enter.entered = l.entered + 1 := by
  simp [entered, enter, Statement.request]

@[simp] theorem entered_issue (l : Loop) (r : WriteRequest) : (l.issue r).entered = l.entered := by
  simp [entered, issue, Statement.request]

@[simp] theorem trapped_done : done.trapped = false := rfl

@[simp] theorem trapped_trap : trap.trapped = true := rfl

@[simp] theorem trapped_enter (l : Loop) : l.enter.trapped = l.trapped := rfl

@[simp] theorem trapped_issue (l : Loop) (r : WriteRequest) : (l.issue r).trapped = l.trapped := rfl

theorem followedBy_of_trapped {first : Loop} (h : first.trapped = true) (second : Loop) :
    first.followedBy second = first := if_pos h

theorem requests_followedBy {first : Loop} (h : first.trapped = false) (second : Loop) :
    (first.followedBy second).requests = first.requests ++ second.requests := by
  simp [followedBy, h, requests]

theorem entered_followedBy {first : Loop} (h : first.trapped = false) (second : Loop) :
    (first.followedBy second).entered = first.entered + second.entered := by
  simp [followedBy, h, entered]

theorem trapped_followedBy {first : Loop} (h : first.trapped = false) (second : Loop) :
    (first.followedBy second).trapped = second.trapped := by
  simp [followedBy, h]

end Loop

/-- The loop of `removeSpots`: the path is the string field `id`, not the ID of
the document that was listed. -/
def removeSpots : List (String × Dictionary) → Loop
  | [] => .done
  | snapshot :: snapshots =>
    match snapshot.2.string "id" with
    | some ids =>
      match Collection.spots.document ids with
      | some ref =>
        ((removeSpots snapshots).issue ⟨.deleteSpot snapshot.1, ref, none⟩).enter
      | none => Loop.trap.enter
    | none => removeSpots snapshots

/-- The loop of `removeCities`. -/
def removeCities : List (String × Dictionary) → Loop
  | [] => .done
  | snapshot :: snapshots =>
    ((removeCities snapshots).issue
      ⟨.deleteCity snapshot.1, ⟨.cities, snapshot.1⟩, none⟩).enter

abbrev CityEnumDict := AList (fun _ : CityEnum => List String)

/-- Append an id to the list of its city. -/
def CityEnumDict.append (dict : CityEnumDict) (cityEnum : CityEnum) (id : String) : CityEnumDict :=
  match dict.lookup cityEnum with
  | some ids => dict.insert cityEnum (ids ++ [id])
  | none => dict.insert cityEnum [id]

/-- `postSpots`: one pass over the spots, from loop counter `index` on, which enters no
group. The source returns an optional that is never nil. -/
def postSpots : ℕ → List Spot → CityEnumDict → Loop × CityEnumDict
  | _, [], dict => (.done, dict)
  | index, spot :: spots, dict =>
    match spot.city.bind CityEnum.ofRawValue with
    | some cityEnum =>
      match Collection.spots.document spot.id with
      | some ref =>
        let rest := postSpots (index + 1) spots (dict.append cityEnum spot.id)
        (rest.1.issue ⟨.setSpot index, ref, some spot.dictionary⟩, rest.2)
      | none => (.trap, dict)
    | none => postSpots (index + 1) spots dict

/-- The document that `updataSpotsAPI` writes for one city. -/
def cityDocument (values : List String) : Dictionary := [("cityIds", .array (values.map .string))]

/-- The loop of `updataSpotsAPI` over the grouping dictionary. -/
def postCities : List (Sigma fun _ : CityEnum => List String) → Loop
  | [] => .done
  | entry :: entries =>
    ((postCities entries).issue
      ⟨.setCity entry.1, ⟨.cities, entry.1.rawValue⟩, some (cityDocument entry.2)⟩).enter

/-- What one download issues: all Spots writes, then all Cities writes. -/
def updataSpotsAPI (spots : List Spot) : Loop :=
  let posted := postSpots 0 spots ∅
  posted.1.followedBy (postCities posted.2.entries)

/-- What `dataTask` hands to its callback as data, once read as JSON. -/
inductive Body where
  | notJson
  | json (value : Any)

/-- How `getTaiwanSpots` ends: by an early return, by a trap, or in its completion. -/
inductive Import where
  | returned
  | trapped
  | completed (spots : List Spot)

/-- The guards of `getTaiwanSpots`, down to the list of entries. -/
def info (data : Option Body) : Option (List Dictionary) :=
  match data with
  | some (.json value) => do
    let json ← value.asDictionary
    let xmlHead ← json.dictionary "XML_Head"
    let infos ← xmlHead.dictionary "Infos"
    infos.dictionaries "Info"
  | _ => none

/-- The smallest value of Swift's `Int`. -/
def Int.minValue : ℤ := -2 ^ 63

/-- The slice `info[0...count - 1]`; `none` when the subtraction, the range or the
subscript traps. -/
def slice (info : List Dictionary) (count : ℤ) : Option (List Dictionary) :=
  if count = Int.minValue then none
  else if count - 1 < 0 then none
  else if (info.length : ℤ) ≤ count - 1 then none
  else some (info.take count.toNat)

def getTaiwanSpots (count : ℤ) (data : Option Body) : Import :=
  match info data with
  | none => .returned
  | some info =>
    match (slice info count).bind fun dicts => dicts.mapM Spot.initDictionary with
    | some spots => .completed spots
    | none => .trapped

/-! What each function does to the documents, request failures included. -/

/-- Some listed document names the document in its field `id`, and that delete succeeds. -/
def Swept (fails : Label → Bool) (db : Firestore) (ref : DocumentReference) : Prop :=
  ∃ documentID data ids, db.lookup ⟨.spots, documentID⟩ = some data ∧
    data.string "id" = some ids ∧ Collection.spots.document ids = some ref ∧
    fails (.deleteSpot documentID) = false

/-- The spots of a known city have ids that lead to a document. -/
def Resolves (spots : List Spot) : Prop :=
  ∀ spot ∈ spots, spot.cityEnum.isSome → (Collection.spots.document spot.id).isSome

/-- The spots of a known city have IDs that a document can have. -/
def ValidIDs (spots : List Spot) : Prop :=
  ∀ spot ∈ spots, spot.cityEnum.isSome → ValidDocumentID spot.id

instance (spots : List Spot) : Decidable (Resolves spots) :=
  inferInstanceAs (Decidable (∀ spot ∈ spots, _ → _))

instance (spots : List Spot) : Decidable (ValidIDs spots) :=
  inferInstanceAs (Decidable (∀ spot ∈ spots, _ → _))

theorem ValidIDs.resolves {spots : List Spot} (h : ValidIDs spots) : Resolves spots := by
  intro spot hmem hcity
  rw [document_of_valid (h spot hmem hcity), Option.isSome_some]

theorem removeSpots_trapped {snapshots : List (String × Dictionary)} :
    (removeSpots snapshots).trapped = true ↔ ∃ snapshot ∈ snapshots, ∃ ids,
      snapshot.2.string "id" = some ids ∧ Collection.spots.document ids = none := by
  induction snapshots with
  | nil => simp [removeSpots]
  | cons snapshot snapshots ih =>
    rw [removeSpots, List.exists_mem_cons_iff]
    cases hids : snapshot.2.string "id" with
    | none => simpa using ih
    | some ids =>
      cases hpath : Collection.spots.document ids with
      | none => simp [hpath]
      | some ref => simpa [hpath] using ih

theorem of_mem_removeSpots {snapshots : List (String × Dictionary)} {r : WriteRequest}
    (h : r ∈ (removeSpots snapshots).requests) : ∃ snapshot ∈ snapshots, ∃ ids ref,
      snapshot.2.string "id" = some ids ∧ Collection.spots.document ids = some ref ∧
      r = ⟨.deleteSpot snapshot.1, ref, none⟩ := by
  induction snapshots with
  | nil => simp [removeSpots] at h
  | cons snapshot snapshots ih =>
    rw [List.exists_mem_cons_iff]
    rw [removeSpots] at h
    cases hids : snapshot.2.string "id" with
    | none => exact .inr (ih (by simpa [hids] using h))
    | some ids =>
      cases hpath : Collection.spots.document ids with
      | none => simp [hids, hpath] at h
      | some ref =>
        simp only [hids, hpath, Loop.requests_enter, Loop.requests_issue, List.mem_cons] at h
        rcases h with rfl | h
        · exact .inl ⟨ids, ref, rfl, hpath, rfl⟩
        · exact .inr (ih h)

/-- Every document is asked for, unless a path raises. -/
theorem mem_removeSpots_of {snapshots : List (String × Dictionary)}
    (htrap : (removeSpots snapshots).trapped = false) {snapshot : String × Dictionary}
    (h : snapshot ∈ snapshots) {ids : String} {ref : DocumentReference}
    (hids : snapshot.2.string "id" = some ids) (href : Collection.spots.document ids = some ref) :
    ⟨.deleteSpot snapshot.1, ref, none⟩ ∈ (removeSpots snapshots).requests := by
  induction snapshots with
  | nil => cases h
  | cons first snapshots ih =>
    rw [removeSpots] at htrap ⊢
    rcases List.mem_cons.mp h with rfl | h
    · simp [hids, href]
    · cases hfirst : first.2.string "id" with
      | none => exact ih (by simpa [hfirst] using htrap) h
      | some path =>
        cases hpath : Collection.spots.document path with
        | none => simp [hfirst, hpath] at htrap
        | some first =>
          simp only [hfirst, hpath] at htrap ⊢
          exact List.mem_cons_of_mem _ (ih htrap h)

theorem mem_removeSpots {db : Firestore} {r : WriteRequest}
    (h : r ∈ (removeSpots (db.documents .spots)).requests) :
    ∃ documentID data ids ref, db.lookup ⟨.spots, documentID⟩ = some data ∧
      data.string "id" = some ids ∧ Collection.spots.document ids = some ref ∧
      r = ⟨.deleteSpot documentID, ref, none⟩ := by
  obtain ⟨⟨documentID, data⟩, hmem, ids, ref, hids, href, rfl⟩ := of_mem_removeSpots h
  exact ⟨documentID, data, ids, ref, Firestore.mem_documents.mp hmem, hids, href, rfl⟩

@[simp] theorem removeCities_trapped (snapshots : List (String × Dictionary)) :
    (removeCities snapshots).trapped = false := by
  induction snapshots with
  | nil => rfl
  | cons snapshot snapshots ih => exact ih

theorem mem_removeCities {db : Firestore} {r : WriteRequest} :
    r ∈ (removeCities (db.documents .cities)).requests ↔
      ∃ documentID data, db.lookup ⟨.cities, documentID⟩ = some data ∧
        r = ⟨.deleteCity documentID, ⟨.cities, documentID⟩, none⟩ := by
  have hmap : ∀ snapshots : List (String × Dictionary), (removeCities snapshots).requests =
      snapshots.map fun snapshot => ⟨.deleteCity snapshot.1, ⟨.cities, snapshot.1⟩, none⟩ := by
    intro snapshots
    induction snapshots with
    | nil => rfl
    | cons snapshot snapshots ih => rw [List.map_cons, ← ih]; rfl
  simp only [hmap, List.mem_map, Prod.exists, Firestore.mem_documents]
  constructor
  · rintro ⟨documentID, data, hd, rfl⟩
    exact ⟨documentID, data, hd, rfl⟩
  · rintro ⟨documentID, data, hd, rfl⟩
    exact ⟨documentID, data, hd, rfl⟩

theorem lookup_removeSpots_of_swept {fails : Label → Bool} {db : Firestore}
    {ref : DocumentReference} (htrap : (removeSpots (db.documents .spots)).trapped = false)
    (h : Swept fails db ref) :
    (settle fails db (removeSpots (db.documents .spots)).requests).lookup ref = none := by
  obtain ⟨documentID, data, ids, hd, hi, href, hf⟩ := h
  apply lookup_settle_of_value
  · intro r hr _ _
    obtain ⟨_, _, _, _, _, _, _, rfl⟩ := mem_removeSpots hr
    rfl
  · exact ⟨_, mem_removeSpots_of htrap (Firestore.mem_documents.mpr hd) hi href, rfl, hf⟩

theorem lookup_removeSpots_of_not_swept {fails : Label → Bool} {db : Firestore}
    {ref : DocumentReference} (h : ¬ Swept fails db ref) :
    (settle fails db (removeSpots (db.documents .spots)).requests).lookup ref =
      db.lookup ref := by
  apply lookup_settle_of_untouched
  rintro r hr rfl
  obtain ⟨documentID, data, ids, ref, hd, hi, href, rfl⟩ := mem_removeSpots hr
  by_contra hf
  exact h ⟨documentID, data, ids, hd, hi, href, by simpa using hf⟩

theorem lookup_removeSpots_of_ne {fails : Label → Bool} {db : Firestore} {ref : DocumentReference}
    (h : ref.collection.root ≠ .spots) :
    (settle fails db (removeSpots (db.documents .spots)).requests).lookup ref = db.lookup ref := by
  refine lookup_removeSpots_of_not_swept ?_
  rintro ⟨_, _, _, _, _, href, _⟩
  exact h (root_of_document href)

theorem lookup_removeCities {fails : Label → Bool} {db : Firestore} (name : String) :
    (settle fails db (removeCities (db.documents .cities)).requests).lookup ⟨.cities, name⟩ =
      if fails (.deleteCity name) then db.lookup ⟨.cities, name⟩ else none := by
  by_cases hf : fails (.deleteCity name) = true
  · rw [if_pos hf]
    apply lookup_settle_of_untouched
    intro r hr hk
    obtain ⟨documentID, _, _, rfl⟩ := mem_removeCities.mp hr
    obtain rfl : name = documentID := congrArg DocumentReference.documentID hk
    exact hf
  · rw [if_neg hf]
    cases hd : db.lookup ⟨.cities, name⟩ with
    | some data =>
      apply lookup_settle_of_value
      · intro r hr _ _
        obtain ⟨_, _, _, rfl⟩ := mem_removeCities.mp hr
        rfl
      · exact ⟨_, mem_removeCities.mpr ⟨name, data, hd, rfl⟩, rfl, by simpa using hf⟩
    | none =>
      rw [lookup_settle_of_untouched, hd]
      intro r hr hk
      obtain ⟨documentID, _, hdoc, rfl⟩ := mem_removeCities.mp hr
      obtain rfl : name = documentID := congrArg DocumentReference.documentID hk
      rw [hd] at hdoc
      cases hdoc

theorem lookup_removeCities_of_ne {fails : Label → Bool} {db : Firestore}
    {ref : DocumentReference} (h : ref.collection ≠ .cities) :
    (settle fails db (removeCities (db.documents .cities)).requests).lookup ref =
      db.lookup ref := by
  apply lookup_settle_of_untouched
  intro r hr hk
  obtain ⟨_, _, _, rfl⟩ := mem_removeCities.mp hr
  exact absurd (congrArg DocumentReference.collection hk) h

/-- The ids of the spots of one city, one per occurrence, in feed order. -/
def idsOf (c : CityEnum) (spots : List Spot) : List String :=
  (spots.filter fun s => s.cityEnum = some c).map Spot.id

/-- The last spot whose id leads to the document and whose write takes effect; spots of
an unrecognised city are never written. -/
def lastWritten (fails : Label → Bool) (ref : DocumentReference) (spots : List Spot) :
    Option Spot :=
  ((spots.zipIdx.filter fun entry => entry.1.cityEnum.isSome ∧
    Collection.spots.document entry.1.id = some ref ∧
    fails (.setSpot entry.2) = false).map Prod.fst).getLast?

theorem postSpots_trapped {index : ℕ} {spots : List Spot} {dict : CityEnumDict} :
    (postSpots index spots dict).1.trapped = false ↔ Resolves spots := by
  induction spots generalizing index dict with
  | nil => simp [postSpots, Resolves]
  | cons spot spots ih =>
    rw [postSpots, Resolves, List.forall_mem_cons]
    cases hc : spot.city.bind CityEnum.ofRawValue with
    | none => simpa [Resolves, Spot.cityEnum, hc] using ih
    | some c =>
      cases hpath : Collection.spots.document spot.id with
      | none => simp [Spot.cityEnum, hc]
      | some ref => simpa [Resolves, Spot.cityEnum, hc] using ih

theorem postSpots_requests {index : ℕ} {spots : List Spot} {dict : CityEnumDict}
    (h : Resolves spots) :
    (postSpots index spots dict).1.requests =
      (spots.zipIdx index).filterMap fun entry =>
        if entry.1.cityEnum.isSome then (Collection.spots.document entry.1.id).map fun ref =>
          ⟨.setSpot entry.2, ref, some entry.1.dictionary⟩
        else none := by
  induction spots generalizing index dict with
  | nil => rfl
  | cons spot spots ih =>
    rw [Resolves, List.forall_mem_cons] at h
    rw [postSpots, List.zipIdx_cons]
    cases hc : spot.city.bind CityEnum.ofRawValue with
    | none =>
      rw [List.filterMap_cons_none (by simp [Spot.cityEnum, hc])]
      exact ih h.2
    | some c =>
      obtain ⟨ref, href⟩ := Option.isSome_iff_exists.mp (h.1 (by simp [Spot.cityEnum, hc]))
      rw [List.filterMap_cons_some (b := ⟨.setSpot index, ref, some spot.dictionary⟩)
        (by simp [Spot.cityEnum, hc, href])]
      simp only [href, Loop.requests_issue]
      rw [ih h.2]

theorem CityEnumDict.lookup_append (dict : CityEnumDict) (c c' : CityEnum) (id : String) :
    (dict.append c id).lookup c' =
      if c' = c then some ((dict.lookup c).getD [] ++ [id]) else dict.lookup c' := by
  unfold CityEnumDict.append
  by_cases h : c' = c
  · subst h
    cases hd : dict.lookup c' <;> simp
  · cases hd : dict.lookup c <;> simp [h]

theorem postSpots_dict {index : ℕ} {spots : List Spot} {dict : CityEnumDict}
    (h : Resolves spots) (c : CityEnum) :
    (postSpots index spots dict).2.lookup c =
      if idsOf c spots = [] then dict.lookup c
      else some ((dict.lookup c).getD [] ++ idsOf c spots) := by
  induction spots generalizing index dict with
  | nil => simp [postSpots, idsOf]
  | cons spot spots ih =>
    rw [Resolves, List.forall_mem_cons] at h
    rw [postSpots]
    cases hc : spot.city.bind CityEnum.ofRawValue with
    | none =>
      have hi : idsOf c (spot :: spots) = idsOf c spots := by simp [idsOf, Spot.cityEnum, hc]
      simp only [ih h.2, hi]
    | some c' =>
      obtain ⟨ref, href⟩ := Option.isSome_iff_exists.mp (h.1 (by simp [Spot.cityEnum, hc]))
      simp only [href, ih h.2, CityEnumDict.lookup_append]
      by_cases h : c = c'
      · subst h
        have hi : idsOf c (spot :: spots) = spot.id :: idsOf c spots := by
          simp [idsOf, Spot.cityEnum, hc]
        rw [hi]
        by_cases hn : idsOf c spots = [] <;> simp [hn]
      · have hi : idsOf c (spot :: spots) = idsOf c spots := by
          simp [idsOf, Spot.cityEnum, hc, Ne.symm h]
        rw [hi, if_neg h]

theorem postCities_eq (entries : List (Sigma fun _ : CityEnum => List String)) :
    (postCities entries).trapped = false ∧ (postCities entries).requests = entries.map fun entry =>
      ⟨.setCity entry.1, ⟨.cities, entry.1.rawValue⟩, some (cityDocument entry.2)⟩ := by
  induction entries with
  | nil => exact ⟨rfl, rfl⟩
  | cons entry entries ih => exact ⟨ih.1, by rw [List.map_cons, ← ih.2]; rfl⟩

theorem mem_postCities {spots : List Spot} (h : Resolves spots) {r : WriteRequest} :
    r ∈ (postCities (postSpots 0 spots ∅).2.entries).requests ↔
      ∃ c, idsOf c spots ≠ [] ∧
        r = ⟨.setCity c, ⟨.cities, c.rawValue⟩, some (cityDocument (idsOf c spots))⟩ := by
  simp only [(postCities_eq _).2, List.mem_map, Sigma.exists, ← AList.mem_lookup_iff,
    Option.mem_def, postSpots_dict h]
  constructor
  · rintro ⟨c, ids, he, rfl⟩
    by_cases hn : idsOf c spots = []
    · simp [hn] at he
    · obtain rfl : ids = idsOf c spots := by simpa [hn] using he.symm
      exact ⟨c, hn, rfl⟩
  · rintro ⟨c, hn, rfl⟩
    exact ⟨c, idsOf c spots, by simp [hn], rfl⟩

theorem of_mem_postSpots {index : ℕ} {spots : List Spot} {dict : CityEnumDict} {r : WriteRequest}
    (h : r ∈ (postSpots index spots dict).1.requests) :
    ∃ s i ref, (s, i) ∈ spots.zipIdx index ∧ s.cityEnum.isSome ∧
      Collection.spots.document s.id = some ref ∧ r = ⟨.setSpot i, ref, some s.dictionary⟩ := by
  induction spots generalizing index dict with
  | nil => simp [postSpots] at h
  | cons spot spots ih =>
    rw [postSpots] at h
    rw [List.zipIdx_cons]
    cases hc : spot.city.bind CityEnum.ofRawValue with
    | none =>
      obtain ⟨s, i, ref, hm, hs⟩ := ih (by simpa only [hc] using h)
      exact ⟨s, i, ref, List.mem_cons_of_mem _ hm, hs⟩
    | some c =>
      cases hpath : Collection.spots.document spot.id with
      | none => simp [hc, hpath] at h
      | some ref =>
        simp only [hc, hpath, Loop.requests_issue, List.mem_cons] at h
        rcases h with rfl | h
        · exact ⟨spot, index, ref, List.mem_cons_self, by simp [Spot.cityEnum, hc], hpath, rfl⟩
        · obtain ⟨s, i, ref, hm, hs⟩ := ih h
          exact ⟨s, i, ref, List.mem_cons_of_mem _ hm, hs⟩

theorem updataSpotsAPI_trapped {spots : List Spot} :
    (updataSpotsAPI spots).trapped = false ↔ Resolves spots := by
  rw [← @postSpots_trapped 0 spots ∅, updataSpotsAPI]
  cases htrap : (postSpots 0 spots ∅).1.trapped with
  | true => rw [Loop.followedBy_of_trapped htrap, htrap]
  | false => simp [Loop.trapped_followedBy htrap, (postCities_eq _).1]

/-- Without a path that raises, all documents of the spots and of the cities are written. -/
theorem updataSpotsAPI_requests {spots : List Spot} (h : Resolves spots) :
    (updataSpotsAPI spots).requests = (postSpots 0 spots ∅).1.requests ++
      (postCities (postSpots 0 spots ∅).2.entries).requests := by
  rw [updataSpotsAPI, Loop.requests_followedBy (postSpots_trapped.mpr h)]

/-- After a path that raises, no document of a city is written. -/
theorem updataSpotsAPI_requests_of_raises {spots : List Spot} (h : ¬ Resolves spots) :
    (updataSpotsAPI spots).requests = (postSpots 0 spots ∅).1.requests := by
  have htrap : (postSpots 0 spots ∅).1.trapped = true := by
    rw [← Bool.not_eq_false, postSpots_trapped]
    exact h
  rw [updataSpotsAPI, Loop.followedBy_of_trapped htrap]

/-- Whatever the download, a request writes the document of a spot or of a city. -/
theorem mem_updataSpotsAPI {spots : List Spot} {r : WriteRequest}
    (h : r ∈ (updataSpotsAPI spots).requests) :
    (∃ s i ref, (s, i) ∈ spots.zipIdx ∧ s.cityEnum.isSome ∧
      Collection.spots.document s.id = some ref ∧ r = ⟨.setSpot i, ref, some s.dictionary⟩) ∨
    Resolves spots ∧ ∃ c, idsOf c spots ≠ [] ∧
      r = ⟨.setCity c, ⟨.cities, c.rawValue⟩, some (cityDocument (idsOf c spots))⟩ := by
  by_cases hres : Resolves spots
  · rw [updataSpotsAPI_requests hres, List.mem_append] at h
    exact h.imp of_mem_postSpots fun h => ⟨hres, (mem_postCities hres).mp h⟩
  · rw [updataSpotsAPI_requests_of_raises hres] at h
    exact .inl (of_mem_postSpots h)

theorem lookup_updataSpotsAPI_spots (fails : Label → Bool) (db : Firestore) {spots : List Spot}
    (h : Resolves spots) {ref : DocumentReference} (href : ref.collection.root = .spots) :
    (settle fails db (updataSpotsAPI spots).requests).lookup ref =
      match lastWritten fails ref spots with
      | some s => some s.dictionary
      | none => db.lookup ref := by
  have hcities : ∀ r ∈ (postCities (postSpots 0 spots ∅).2.entries).requests,
      ref = r.key → fails r.label = true := by
    rintro r hr rfl
    obtain ⟨c, _, rfl⟩ := (mem_postCities h).mp hr
    cases href
  have heff : effective fails ref (postSpots 0 spots ∅).1.requests =
      (spots.zipIdx.filter fun entry => entry.1.cityEnum.isSome ∧
        Collection.spots.document entry.1.id = some ref ∧
        fails (.setSpot entry.2) = false).map fun entry =>
          ⟨.setSpot entry.2, ref, some entry.1.dictionary⟩ := by
    rw [effective, postSpots_requests h]
    generalize spots.zipIdx = entries
    induction entries with
    | nil => rfl
    | cons entry entries ih =>
      rw [List.filterMap_cons, List.filter_cons]
      cases hc : entry.1.cityEnum.isSome with
      | false => simpa [hc] using ih
      | true =>
        cases hpath : Collection.spots.document entry.1.id with
        | none => simpa [hc, hpath] using ih
        | some ref' =>
          by_cases hkey : ref' = ref
          · subst hkey
            cases hf : fails (.setSpot entry.2) <;> simpa [hc, hpath, hf] using ih
          · simpa [hc, hpath, hkey, Ne.symm hkey] using ih
  rw [updataSpotsAPI_requests h, settle_append, lookup_settle_of_untouched hcities, lookup_settle,
    heff, lastWritten, List.getLast?_map, List.getLast?_map]
  cases (spots.zipIdx.filter fun entry => entry.1.cityEnum.isSome ∧
    Collection.spots.document entry.1.id = some ref ∧
    fails (.setSpot entry.2) = false).getLast? <;> rfl

theorem lookup_updataSpotsAPI_city (fails : Label → Bool) (db : Firestore) {spots : List Spot}
    (hres : Resolves spots) (c : CityEnum) :
    (settle fails db (updataSpotsAPI spots).requests).lookup ⟨.cities, c.rawValue⟩ =
      if idsOf c spots ≠ [] ∧ fails (.setCity c) = false
      then some (cityDocument (idsOf c spots)) else db.lookup ⟨.cities, c.rawValue⟩ := by
  have hspots : ∀ r ∈ (postSpots 0 spots ∅).1.requests,
      (⟨.cities, c.rawValue⟩ : DocumentReference) = r.key → fails r.label = true := by
    intro r hr hk
    obtain ⟨s, i, ref, _, _, href, rfl⟩ := of_mem_postSpots hr
    have hroot := root_of_document href
    obtain rfl : (⟨.cities, c.rawValue⟩ : DocumentReference) = ref := hk
    cases hroot
  have hbase := lookup_settle_of_untouched (s := db) hspots
  rw [updataSpotsAPI_requests hres, settle_append]
  split_ifs with h
  · apply lookup_settle_of_value
    · intro r hr hk _
      obtain ⟨c', _, rfl⟩ := (mem_postCities hres).mp hr
      obtain rfl := CityEnum.rawValue_injective (congrArg DocumentReference.documentID hk)
      rfl
    · exact ⟨_, (mem_postCities hres).mpr ⟨c, h.1, rfl⟩, rfl, h.2⟩
  · rw [lookup_settle_of_untouched, hbase]
    intro r hr hk
    obtain ⟨c', hn, rfl⟩ := (mem_postCities hres).mp hr
    obtain rfl := CityEnum.rawValue_injective (congrArg DocumentReference.documentID hk)
    by_contra hf
    exact h ⟨hn, by simpa using hf⟩

/-- Nothing but documents below Spots and the documents of the five cities is written. -/
theorem lookup_updataSpotsAPI_of_ne (fails : Label → Bool) (db : Firestore) (spots : List Spot)
    {ref : DocumentReference} (hs : ref.collection.root ≠ .spots)
    (hc : ∀ c : CityEnum, ref ≠ ⟨.cities, c.rawValue⟩) :
    (settle fails db (updataSpotsAPI spots).requests).lookup ref = db.lookup ref := by
  apply lookup_settle_of_untouched
  rintro r hr rfl
  rcases mem_updataSpotsAPI hr with ⟨s, i, ref, _, _, href, rfl⟩ | ⟨-, c, -, rfl⟩
  · exact absurd (root_of_document href) hs
  · exact absurd rfl (hc c)

end TaiwanSpots
