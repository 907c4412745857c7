import TaiwanSpots.Dictionary

/-!
# Spots, cities and users

A spot is read from the feed under one spelling of its keys and stored in
Firestore under another. Both decoders force-cast some fields; `none` is the
trap of a failed forced cast. The optional city is stored as null when absent.
-/
namespace TaiwanSpots

inductive CityEnum where
  | TTH
  | HLH
  | ILH
  | TYH
  | TNH
  deriving DecidableEq, Repr

namespace CityEnum

def rawValue : CityEnum → String
  | TTH => "臺東縣"
  | HLH => "花蓮縣"
  | ILH => "宜蘭縣"
  | TYH => "桃園市"
  | TNH => "臺南市"

/-- `CityEnum(rawValue:)` -/
def ofRawValue (city : String) : Option CityEnum :=
  [TTH, HLH, ILH, TYH, TNH].find? fun c => c.rawValue = city

theorem ofRawValue_eq_some {city : String} {c : CityEnum} :
    ofRawValue city = some c ↔ c.rawValue = city := by
  constructor
  · intro h
    simpa using List.find?_some h
  · rintro rfl
    cases c <;> decide

theorem rawValue_injective : Function.Injective rawValue := by
  intro c c' h
  exact Option.some.inj ((ofRawValue_eq_some.mpr h).symm.trans (ofRawValue_eq_some.mpr rfl))

end CityEnum

structure Spot where
  id : String
  name : String
  city : Option String
  introduction : String
  phone : String
  district : String
  px : Double
  py : Double
  keyword : String
  picture1 : String
  address : String
  description : String
  travellinginfo : String
  opentime : String
  deriving DecidableEq, Repr

namespace Spot

/-- `Spot(firestoreDictionary:)` -/
def initFirestoreDictionary (d : Dictionary) : Option Spot := do
  let id ← d.string "id"
  let name ← d.string "name"
  let city := d.string "city"
  let introduction ← d.string "introduction"
  let phone ← d.string "phone"
  let district ← d.string "district"
  let px ← d.double "px"
  let py ← d.double "py"
  let keyword ← d.string "keyword"
  let picture1 ← d.string "picture1"
  let address ← d.string "address"
  let description ← d.string "description"
  let travellinginfo ← d.string "travellinginfo"
  let opentime ← d.string "opentime"
  return { id, name, city, introduction, phone, district, px, py, keyword, picture1, address,
           description, travellinginfo, opentime }

/-- `Spot(dictionary:)`, for an entry of the feed -/
def initDictionary (d : Dictionary) : Option Spot := do
  let id ← d.string "Id"
  let name ← d.string "Name"
  let introduction ← d.string "Toldescribe"
  let phone ← d.string "Tel"
  let city := d.string "Region"
  let district := (d.string "Town").getD ""
  let px ← d.double "Px"
  let py ← d.double "Py"
  let keyword := (d.string "Keyword").getD ""
  let picture1 := (d.string "Picture1").getD ""
  let address ← d.string "Add"
  let description := (d.string "Description").getD ""
  let travellinginfo := (d.string "Travellinginfo").getD ""
  let opentime := (d.string "Opentime").getD ""
  return { id, name, city, introduction, phone, district, px, py, keyword, picture1, address,
           description, travellinginfo, opentime }

def dictionary (s : Spot) : Dictionary :=
  [("id", .string s.id),
   ("name", .string s.name),
   ("introduction", .string s.introduction),
   ("phone", .string s.phone),
   ("city", (s.city.map Any.string).getD .null),
   ("district", .string s.district),
   ("px", .double s.px),
   ("py", .double s.py),
   ("keyword", .string s.keyword),
   ("picture1", .string s.picture1),
   ("description", .string s.description),
   ("travellinginfo", .string s.travellinginfo),
   ("opentime", .string s.opentime),
   ("address", .string s.address)]

@[simp] theorem string_id_dictionary (s : Spot) : s.dictionary.string "id" = some s.id := rfl

@[simp] theorem string_city_dictionary (s : Spot) : s.dictionary.string "city" = s.city := by
  cases h : s.city <;> simp [dictionary, Dictionary.string, List.lookup_cons, h, Any.asString]

/-- What the app stores it reads back, whether or not the city is there. -/
theorem initFirestoreDictionary_dictionary (s : Spot) :
    initFirestoreDictionary s.dictionary = some s := by
  have hcity := string_city_dictionary s
  simp only [initFirestoreDictionary, hcity]
  rfl

theorem dictionary_injective {s s' : Spot} (h : s.dictionary = s'.dictionary) : s = s' := by
  have hdecode := congrArg initFirestoreDictionary h
  simpa only [initFirestoreDictionary_dictionary, Option.some.injEq] using hdecode

/-- A spot that is read has the id of its document. -/
theorem string_id_of_initFirestoreDictionary {d : Dictionary} {s : Spot}
    (h : initFirestoreDictionary d = some s) : d.string "id" = some s.id := by
  obtain ⟨id, hid, h⟩ := Option.bind_eq_some_iff.mp h
  iterate 12 obtain ⟨_, -, h⟩ := Option.bind_eq_some_iff.mp h
  rw [hid, ← Option.some.inj h]

/-- The city under which the app files the spot, when it recognises one. -/
def cityEnum (s : Spot) : Option CityEnum := s.city.bind CityEnum.ofRawValue

/-- `==` on spots compares ids only. -/
def equal (left right : Spot) : Bool := left.id = right.id

end Spot

/-- A spot with nothing but an id and a city, to run the app on. -/
def sampleSpot (id : String) (city : Option String) : Spot where
  id := id
  name := ""
  city := city
  introduction := ""
  phone := ""
  district := ""
  px := ⟨0⟩
  py := ⟨0⟩
  keyword := ""
  picture1 := ""
  address := ""
  description := ""
  travellinginfo := ""
  opentime := ""

structure User where
  email : String
  name : String
  password : String
  isAdmin : Bool
  deriving DecidableEq, Repr

/-- `User(email:name:password:)` -/
def User.init (email name password : String) : User := ⟨email, name, password, false⟩

def User.dictionary (user : User) : Dictionary :=
  [("email", .string user.email), ("name", .string user.name),
   ("password", .string user.password)]

end TaiwanSpots
