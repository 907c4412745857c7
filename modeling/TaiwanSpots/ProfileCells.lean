import Mathlib.Data.List.Induction
import TaiwanSpots.Spot

/-!
# The rows of the profile

A cell of the profile is created with an empty accessory view installed.
`cellForRowAt` sets a title and adds to the accessory view, or takes it off the
cell; nothing is ever removed from the view or put back. What a configuration sets,
adds and takes off is therefore the whole of its effect, and a cell that is reused
shows the sum of its past.
-/
namespace TaiwanSpots

/-- A subview of `customAccessoryView`. -/
inductive AccessorySubview where
  | customAccessoryLabel (text : String)
  | customAccessoryTextField
  | apiButton
  deriving DecidableEq, Repr

inductive AccessoryType where
  | none
  | disclosureIndicator
  deriving DecidableEq, Repr

structure ProfileTableViewCell where
  textLabel : Option String
  customAccessoryView : List AccessorySubview
  /-- Whether `customAccessoryView` is the accessory view of the cell. -/
  accessoryView : Bool
  accessoryType : AccessoryType

namespace ProfileTableViewCell

/-- `init(style:reuseIdentifier:)` -/
def init : ProfileTableViewCell := ⟨none, [], true, .none⟩

def setupCustomAccessoryText (cell : ProfileTableViewCell) (text : String) :
    ProfileTableViewCell :=
  { cell with customAccessoryView := cell.customAccessoryView ++ [.customAccessoryLabel text] }

def setupApiView (cell : ProfileTableViewCell) : ProfileTableViewCell :=
  { cell with
    customAccessoryView := cell.customAccessoryView ++ [.customAccessoryTextField, .apiButton] }

/-- `cellForRowAt`, with the cell that is dequeued. -/
def cellForRowAt (cell : ProfileTableViewCell) (row : ℕ) (user : User) : ProfileTableViewCell :=
  match row with
  | 0 => { cell with textLabel := some "Email" }.setupCustomAccessoryText user.email
  | 1 => { cell with textLabel := some "Name" }.setupCustomAccessoryText user.name
  | 2 =>
    { cell with
      textLabel := some "我的收藏"
      accessoryView := false
      accessoryType := .disclosureIndicator }
  | 5 => if user.isAdmin then { cell with textLabel := some "更新資料庫" }.setupApiView else cell
  | _ => { cell with textLabel := some "您好，歡迎光臨" }

/-- A cell that has been configured for these rows and users, one after the other. -/
def reused (past : List (ℕ × User)) : ProfileTableViewCell :=
  past.foldl (fun cell e => cell.cellForRowAt e.1 e.2) init

/-- What the cell shows: its title, what stands in the accessory view if that is
installed, and the accessory type. -/
def shown (cell : ProfileTableViewCell) :
    Option String × Option (List AccessorySubview) × AccessoryType :=
  (cell.textLabel, if cell.accessoryView then some cell.customAccessoryView else none,
    cell.accessoryType)

/-! The effect of one configuration, and of all of them. -/

def title (e : ℕ × User) : Option String :=
  match e.1 with
  | 0 => some "Email"
  | 1 => some "Name"
  | 2 => some "我的收藏"
  | 5 => if e.2.isAdmin then some "更新資料庫" else none
  | _ => some "您好，歡迎光臨"

def added (e : ℕ × User) : List AccessorySubview :=
  match e.1 with
  | 0 => [.customAccessoryLabel e.2.email]
  | 1 => [.customAccessoryLabel e.2.name]
  | 5 => if e.2.isAdmin then [.customAccessoryTextField, .apiButton] else []
  | _ => []

def detaches (e : ℕ × User) : Bool := e.1 = 2

theorem cellForRowAt_eq (cell : ProfileTableViewCell) (e : ℕ × User) :
    cell.cellForRowAt e.1 e.2 =
      { textLabel := (title e).or cell.textLabel
        customAccessoryView := cell.customAccessoryView ++ added e
        accessoryView := cell.accessoryView && !detaches e
        accessoryType := if detaches e then .disclosureIndicator else cell.accessoryType } := by
  obtain ⟨row, user⟩ := e
  rcases row with _ | _ | _ | _ | _ | _ | row
  · simp [cellForRowAt, title, added, detaches, setupCustomAccessoryText]
  · simp [cellForRowAt, title, added, detaches, setupCustomAccessoryText]
  · simp [cellForRowAt, title, added, detaches]
  · simp [cellForRowAt, title, added, detaches]
  · simp [cellForRowAt, title, added, detaches]
  · cases hadmin : user.isAdmin <;>
      simp [cellForRowAt, title, added, detaches, setupApiView, hadmin]
  · simp [cellForRowAt, title, added, detaches]

/-- Only row 5 of a user who is no admin sets no title. -/
theorem title_eq_none {e : ℕ × User} : title e = none ↔ e.1 = 5 ∧ e.2.isAdmin = false := by
  obtain ⟨row, user⟩ := e
  rcases row with _ | _ | _ | _ | _ | _ | row <;> simp [title]

theorem added_eq_nil {e : ℕ × User} :
    added e = [] ↔ e.1 ≠ 0 ∧ e.1 ≠ 1 ∧ (e.1 = 5 → e.2.isAdmin = false) := by
  obtain ⟨row, user⟩ := e
  rcases row with _ | _ | _ | _ | _ | _ | row <;> simp [added]

/-- A cell that is reused has everything that was ever added, and its accessory view
until a configuration takes it off. -/
structure Accumulated (past : List (ℕ × User)) (cell : ProfileTableViewCell) : Prop where
  textLabel : cell.textLabel = none ↔ ∀ e ∈ past, title e = none
  customAccessoryView : cell.customAccessoryView = past.flatMap added
  accessoryView : cell.accessoryView = !past.any detaches
  accessoryType : cell.accessoryType = if past.any detaches then .disclosureIndicator else .none

theorem accumulated_reused (past : List (ℕ × User)) : Accumulated past (reused past) := by
  induction past using List.reverseRecOn with
  | nil => exact ⟨by simp [reused, init], rfl, rfl, rfl⟩
  | append_singleton past e ih =>
    have hnext : reused (past ++ [e]) = (reused past).cellForRowAt e.1 e.2 := by simp [reused]
    rw [hnext, cellForRowAt_eq]
    obtain ⟨htitle, hview, hinstalled, htype⟩ := ih
    constructor
    · simp [Option.or_eq_none_iff, htitle, and_comm, or_imp, forall_and]
    · simp [hview]
    · simp [hinstalled]
    · have hany : (past ++ [e]).any detaches = (past.any detaches || detaches e) := by
        rw [List.any_append, List.any_cons, List.any_nil, Bool.or_false]
      rw [hany, htype]
      cases detaches e <;> cases past.any detaches <;> rfl

theorem shown_cellForRowAt (cell : ProfileTableViewCell) (e : ℕ × User) :
    (cell.cellForRowAt e.1 e.2).shown =
      ((title e).or cell.textLabel,
        if cell.accessoryView && !detaches e then some (cell.customAccessoryView ++ added e)
        else none,
        if detaches e then .disclosureIndicator else cell.accessoryType) := by
  rw [cellForRowAt_eq, shown]

/-- A configuration that takes the accessory view off decides all that is shown. -/
theorem shown_of_detaches {e : ℕ × User} (h : detaches e = true)
    (cell cell' : ProfileTableViewCell) :
    (cell.cellForRowAt e.1 e.2).shown = (cell'.cellForRowAt e.1 e.2).shown := by
  have htitle : (title e).isSome = true := by
    rw [Option.isSome_iff_ne_none, ne_eq, title_eq_none]
    have hrow : e.1 = 2 := of_decide_eq_true h
    omega
  obtain ⟨text, htext⟩ := Option.isSome_iff_exists.mp htitle
  simp [shown_cellForRowAt, h, htext]

/-- Any other shows what a new cell does when the past has left no trace. -/
theorem shown_reused_iff_of_not_detaches {e : ℕ × User} (h : detaches e = false)
    (past : List (ℕ × User)) :
    ((reused past).cellForRowAt e.1 e.2).shown = (init.cellForRowAt e.1 e.2).shown ↔
      (title e = none → ∀ e' ∈ past, title e' = none) ∧
        ∀ e' ∈ past, detaches e' = false ∧ added e' = [] := by
  obtain ⟨htitle, hview, hinstalled, htype⟩ := accumulated_reused past
  rw [shown_cellForRowAt, shown_cellForRowAt, Prod.mk.injEq, Prod.mk.injEq, ← htitle, hview,
    hinstalled, htype, h]
  have htitles : (title e).or (reused past).textLabel = (title e).or init.textLabel ↔
      (title e = none → (reused past).textLabel = none) := by
    cases title e <;> simp [init]
  have hviews : ((if (!past.any detaches) && !false then some (past.flatMap added ++ added e)
      else none) = if init.accessoryView && !false then some (init.customAccessoryView ++ added e)
      else none) ↔ past.any detaches = false ∧ past.flatMap added = [] := by
    cases past.any detaches <;> simp [init]
  rw [htitles, hviews]
  refine and_congr_right fun _ => ?_
  constructor
  · rintro ⟨⟨hany, hadded⟩, -⟩ e' he'
    exact ⟨by simpa using List.any_eq_false.mp hany e' he',
      List.flatMap_eq_nil_iff.mp hadded e' he'⟩
  · intro hpast
    have hany : past.any detaches = false :=
      List.any_eq_false.mpr fun e' he' => by simp [(hpast e' he').1]
    exact ⟨⟨hany, List.flatMap_eq_nil_iff.mpr fun e' he' => (hpast e' he').2⟩, by simp [hany, init]⟩

/-- After any past, a cell shows what a new one does exactly when it is configured for
the favourites, or nothing was ever added to its accessory view or taken off; and for
a row that sets no title, when no row before has set one. -/
theorem shown_reused_iff (past : List (ℕ × User)) (row : ℕ) (user : User) :
    ((reused past).cellForRowAt row user).shown = (init.cellForRowAt row user).shown ↔
      row = 2 ∨ (∀ e ∈ past, e.1 ≠ 0 ∧ e.1 ≠ 1 ∧ e.1 ≠ 2 ∧ (e.1 = 5 → e.2.isAdmin = false)) ∧
        (row = 5 → user.isAdmin = false → ∀ e ∈ past, e.1 = 5 ∧ e.2.isAdmin = false) := by
  by_cases hrow : row = 2
  · exact iff_of_true (shown_of_detaches (e := (row, user)) (decide_eq_true hrow) _ _) (.inl hrow)
  · have hkeeps : detaches (row, user) = false := decide_eq_false hrow
    have hbare : ∀ e : ℕ × User, (detaches e = false ∧ added e = []) ↔
        e.1 ≠ 0 ∧ e.1 ≠ 1 ∧ e.1 ≠ 2 ∧ (e.1 = 5 → e.2.isAdmin = false) := by
      intro e
      rw [added_eq_nil, detaches, decide_eq_false_iff_not]
      tauto
    have hiff := shown_reused_iff_of_not_detaches hkeeps past
    simp only [title_eq_none, hbare] at hiff
    simp only [hiff, hrow, false_or, and_imp]
    exact and_comm

/-- The name is laid over the e-mail, and a cell that had the favourites has no e-mail. -/
theorem reused_cell_shows_past :
    ((reused [(0, .init "a@b.c" "a" "")]).cellForRowAt 1 (.init "a@b.c" "a" "")).shown ≠
        (init.cellForRowAt 1 (.init "a@b.c" "a" "")).shown ∧
      ((reused [(2, .init "a@b.c" "a" "")]).cellForRowAt 0 (.init "a@b.c" "a" "")).shown ≠
        (init.cellForRowAt 0 (.init "a@b.c" "a" "")).shown := by
  decide

end ProfileTableViewCell

end TaiwanSpots
