/-!
# Maps from names

`NameMap V` holds named entries in increasing order of name. The order is part of the type
(`SortedFrom`), so two maps with the same entries are equal (`SortedFrom.ext`), and a tree may hold
maps of its own subtrees.

Strings are ordered by code point, which is also the order of their UTF-8 bytes.
-/

set_option autoImplicit false

namespace ChannelConfig

/-- `Above lo name`: the name comes after the bound `lo`, if there is one. -/
def Above : Option String → String → Prop
  | none, _ => True
  | some l, name => l < name

instance (lo : Option String) (name : String) : Decidable (Above lo name) :=
  match lo with
  | none => isTrue trivial
  | some l => inferInstanceAs (Decidable (l < name))

/-- Entries in increasing order of name, all of them above `lo`. -/
inductive SortedFrom (V : Type) : Option String → Type where
  | nil {lo : Option String} : SortedFrom V lo
  | cons {lo : Option String} (name : String) (above : Above lo name) (value : V)
      (rest : SortedFrom V (some name)) : SortedFrom V lo

abbrev NameMap (V : Type) : Type := SortedFrom V none

theorem Above.trans {lo : Option String} {a b : String} (h : Above lo a)
    (hab : Above (some a) b) : Above lo b := by
  cases lo with
  | none => trivial
  | some l => exact String.lt_trans h hab

namespace SortedFrom

variable {V W : Type} {lo lo' : Option String}

instance : EmptyCollection (SortedFrom V lo) := ⟨.nil⟩
instance : Inhabited (SortedFrom V lo) := ⟨.nil⟩

/-! ## Reading -/

def toList : {lo : Option String} → SortedFrom V lo → List (String × V)
  | _, .nil => []
  | _, .cons name _ value rest => (name, value) :: rest.toList

def find? (key : String) : {lo : Option String} → SortedFrom V lo → Option V
  | _, .nil => none
  | _, .cons name _ value rest => if name = key then some value else rest.find? key

def isEmpty : SortedFrom V lo → Bool
  | .nil => true
  | .cons .. => false

def contains (key : String) (m : SortedFrom V lo) : Bool := (m.find? key).isSome

def names (m : SortedFrom V lo) : List String := m.toList.map (·.1)

def values (m : SortedFrom V lo) : List V := m.toList.map (·.2)

def size (m : SortedFrom V lo) : Nat := m.toList.length

/-! ## Changing -/

/-- The same entries under a bound that admits at least as many names. -/
def relax (h : ∀ name, Above lo name → Above lo' name) : SortedFrom V lo → SortedFrom V lo'
  | .nil => .nil
  | .cons name above value rest => .cons name (h name above) value rest

/-- Sets the entry of `key`, replacing the one that is there. -/
def insertAbove (key : String) (value : V) :
    {lo : Option String} → Above lo key → SortedFrom V lo → SortedFrom V lo
  | _, above, .nil => .cons key above value .nil
  | _, above, .cons name above' old rest =>
    if before : key < name then .cons key above value (.cons name before old rest)
    else if same : name = key then .cons name above' value rest
    else .cons name above' old (rest.insertAbove key value
      (Std.lt_of_le_of_ne (String.not_lt.1 before) same))

def map (f : String → V → W) : {lo : Option String} → SortedFrom V lo → SortedFrom W lo
  | _, .nil => .nil
  | _, .cons name above value rest => .cons name above (f name value) (rest.map f)

/-- Keeps the entries on which `f` is defined, with its values. -/
def filterMap (f : String → V → Option W) : {lo : Option String} → SortedFrom V lo → SortedFrom W lo
  | _, .nil => .nil
  | _, .cons name above value rest =>
    match f name value with
    | some w => .cons name above w (rest.filterMap f)
    | none => (rest.filterMap f).relax fun _ => above.trans

def filter (p : String → V → Bool) (m : SortedFrom V lo) : SortedFrom V lo :=
  m.filterMap fun name value => if p name value then some value else none

def erase (key : String) (m : SortedFrom V lo) : SortedFrom V lo :=
  m.filter fun name _ => name ≠ key

/-! ## Maps without a bound -/

def insert (m : NameMap V) (key : String) (value : V) : NameMap V :=
  SortedFrom.insertAbove key value trivial m

/-- The entries of both maps; where both have a name, the second map's entry counts. -/
def overlay (m n : NameMap V) : NameMap V :=
  n.toList.foldl (fun acc e => insert acc e.1 e.2) m

/-- Of several entries for one name the last counts. -/
def ofList (es : List (String × V)) : NameMap V :=
  es.foldl (fun acc e => insert acc e.1 e.2) .nil

/-- Changes the entry of `key`, if there is one. -/
def modify (m : NameMap V) (key : String) (f : V → V) : NameMap V :=
  m.map fun name value => if name = key then f value else value

/-! ## The look-up view -/

@[simp] theorem find?_nil (key : String) : (nil : SortedFrom V lo).find? key = none := rfl

@[simp] theorem toList_nil : (nil : SortedFrom V lo).toList = [] := rfl

theorem find?_eq_none_of_not_above {key : String} :
    {lo : Option String} → (m : SortedFrom V lo) → ¬ Above lo key → m.find? key = none
  | _, .nil, _ => rfl
  | _, .cons name above _ rest, h => by
    have hne : name ≠ key := by rintro rfl; exact h above
    have hrest : ¬ Above (some name) key := fun hlt => h (above.trans hlt)
    simp [find?, hne, find?_eq_none_of_not_above rest hrest]

theorem find?_cons_self {name : String} {above : Above lo name} {value : V}
    {rest : SortedFrom V (some name)} : (cons name above value rest).find? name = some value := by
  simp [find?]

theorem find?_cons_of_ne {name key : String} {above : Above lo name} {value : V}
    {rest : SortedFrom V (some name)} (h : name ≠ key) :
    (cons name above value rest).find? key = rest.find? key := by
  simp [find?, h]

/-- The first name of a map is in no map of later names. -/
theorem find?_eq_none_of_le {name key : String} (rest : SortedFrom V (some name))
    (h : key ≤ name) : rest.find? key = none :=
  find?_eq_none_of_not_above rest (String.not_lt.2 h)

/-- Maps with the same entries are equal. -/
theorem ext : {lo : Option String} → {m n : SortedFrom V lo} →
    (∀ key, m.find? key = n.find? key) → m = n
  | _, .nil, .nil, _ => rfl
  | _, .nil, .cons name _ _ _, h => by simpa [find?] using h name
  | _, .cons name _ _ _, .nil, h => by simpa [find?] using h name
  | _, .cons a ha v r, .cons b hb w s, h => by
    have first : ∀ {lo : Option String} {a b : String} {ha : Above lo a} {hb : Above lo b} {v w : V}
        {r : SortedFrom V (some a)} {s : SortedFrom V (some b)},
        (∀ key, (cons a ha v r).find? key = (cons b hb w s).find? key) → ¬ a < b := by
      intro lo a b ha hb v w r s h hlt
      have hne : b ≠ a := by rintro rfl; exact String.lt_irrefl _ hlt
      have := h a
      rw [find?_cons_self, find?_cons_of_ne hne,
        find?_eq_none_of_le s (String.not_lt.1 (String.lt_asymm hlt))] at this
      cases this
    have hab : a = b :=
      String.le_antisymm (String.not_lt.1 (first fun key => (h key).symm))
        (String.not_lt.1 (first h))
    subst hab
    have hv : v = w := by simpa [find?] using h a
    have hr : r = s := by
      refine ext fun key => ?_
      by_cases hk : a = key
      · subst hk
        rw [find?_eq_none_of_le r (String.le_refl a), find?_eq_none_of_le s (String.le_refl a)]
      · simpa [find?, hk] using h key
    rw [hv, hr]

theorem toList_inj : {lo : Option String} → {m n : SortedFrom V lo} → m.toList = n.toList ↔ m = n
  | _, .nil, .nil => by simp
  | _, .nil, .cons .. => by simp [toList]
  | _, .cons .., .nil => by simp [toList]
  | _, .cons a _ v r, .cons b _ w s => by
    simp only [toList, List.cons.injEq, Prod.mk.injEq, cons.injEq]
    constructor
    · rintro ⟨⟨rfl, rfl⟩, h⟩
      simp [toList_inj.1 h]
    · rintro ⟨rfl, rfl, h⟩
      cases h
      simp

@[simp] theorem find?_relax (h : ∀ name, Above lo name → Above lo' name)
    (m : SortedFrom V lo) (key : String) : (m.relax h).find? key = m.find? key := by
  cases m <;> rfl

theorem find?_insertAbove (key : String) (value : V) (k : String) :
    {lo : Option String} → (above : Above lo key) → (m : SortedFrom V lo) →
    (m.insertAbove key value above).find? k = if key = k then some value else m.find? k
  | _, _, .nil => rfl
  | _, above, .cons name above' old rest => by
    unfold insertAbove
    split
    · rfl
    · split
      · next same => subst same; by_cases hk : name = k <;> simp [find?, hk]
      · next same =>
        by_cases hk : name = k
        · subst hk; simp [find?, Ne.symm same]
        · rw [find?_cons_of_ne hk, find?_cons_of_ne hk]
          exact find?_insertAbove key value k _ rest

@[simp] theorem find?_map (f : String → V → W) (key : String) :
    {lo : Option String} → (m : SortedFrom V lo) → (m.map f).find? key = (m.find? key).map (f key)
  | _, .nil => rfl
  | _, .cons name _ _ rest => by
    by_cases hk : name = key
    · subst hk; simp [map, find?]
    · simp [map, find?, hk, find?_map f key rest]

@[simp] theorem find?_filterMap (f : String → V → Option W) (key : String) :
    {lo : Option String} → (m : SortedFrom V lo) →
    (m.filterMap f).find? key = (m.find? key).bind (f key)
  | _, .nil => rfl
  | _, .cons name _ value rest => by
    have ih := find?_filterMap f key rest
    unfold filterMap
    by_cases hk : name = key
    · subst hk
      split
      · next hf => simp [find?, hf]
      · next hf =>
        simpa [find?, hf, find?_eq_none_of_le rest (String.le_refl name)] using ih
    · split <;> simp [find?, hk, ih]

instance [DecidableEq V] : DecidableEq (SortedFrom V lo) := fun _ _ =>
  decidable_of_iff _ toList_inj

instance [Repr V] : Repr (SortedFrom V lo) := ⟨fun m prec => reprPrec m.toList prec⟩

theorem find?_insert (m : NameMap V) (key : String) (value : V) (k : String) :
    (m.insert key value).find? k = if key = k then some value else m.find? k :=
  @find?_insertAbove V key value k none trivial m

end SortedFrom

end ChannelConfig
