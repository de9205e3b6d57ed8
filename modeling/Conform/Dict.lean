/-
  Conform.Dict

  Dictionaries with text keys as lists of entries. `insert` and `ofList` keep
  the keys in ascending code point order, each once; `put` keeps the order in
  which keys first came. Either way a key that has been set is found with its
  value, and all other keys are found as before.
-/

namespace Conform

/-- Entries of a dictionary. -/
abbrev Dict (α : Type) := List (String × α)

namespace Dict

variable {α : Type}

def keys (d : Dict α) : List String := d.map Prod.fst

def get? (d : Dict α) (key : String) : Option α := d.lookup key

def contains (d : Dict α) (key : String) : Bool := d.any fun e => e.1 == key

/-- Sets a key, at its place in the order of keys. -/
def insert (d : Dict α) (key : String) (value : α) : Dict α :=
  match d with
  | [] => [(key, value)]
  | (k, v) :: rest =>
    if key = k then (key, value) :: rest
    else if key < k then (key, value) :: (k, v) :: rest
    else (k, v) :: insert rest key value

def erase (d : Dict α) (key : String) : Dict α := d.filter fun e => e.1 != key

/-- Of neighbours with one key the last. -/
def lastOfEach : List (String × α) → List (String × α)
  | [] => []
  | e :: rest =>
    match rest with
    | [] => [e]
    | next :: _ => if e.1 = next.1 then lastOfEach rest else e :: lastOfEach rest

/-- The dictionary with these entries; of repeated keys the last counts. -/
def ofList (entries : List (String × α)) : Dict α :=
  lastOfEach (entries.mergeSort fun a b => a.1 ≤ b.1)

/-- The entries of two dictionaries that have no key in common. -/
def merge (d other : Dict α) : Dict α := List.merge d other fun a b => a.1 ≤ b.1

/-- Sets a key where it stands, or behind all others if it is new. -/
def put (d : Dict α) (key : String) (value : α) : Dict α :=
  match d with
  | [] => [(key, value)]
  | (k, v) :: rest => if key = k then (k, value) :: rest else (k, v) :: put rest key value

/-! ## Look-up -/

theorem get?_nil (key : String) : get? ([] : Dict α) key = none := rfl

theorem get?_cons (key k : String) (value : α) (rest : Dict α) :
    get? ((k, value) :: rest) key = if key = k then some value else get? rest key := by
  unfold get?
  rw [List.lookup_cons]
  by_cases h : key = k
  · simp [h]
  · rw [if_neg h, beq_eq_false_iff_ne.mpr h]

theorem mem_of_get? {d : Dict α} {key : String} {value : α} (h : d.get? key = some value) :
    (key, value) ∈ d := by
  obtain ⟨front, back, rfl, -⟩ := List.lookup_eq_some_iff.mp h
  simp

theorem get?_insert_self (d : Dict α) (key : String) (value : α) :
    (d.insert key value).get? key = some value := by
  induction d with
  | nil => simp [insert, get?_cons]
  | cons e rest ih =>
    unfold insert
    split
    · simp [get?_cons]
    · next hne =>
      split
      · simp [get?_cons]
      · rw [get?_cons, if_neg hne, ih]

theorem get?_insert_of_ne (d : Dict α) {key other : String} (value : α) (h : other ≠ key) :
    (d.insert key value).get? other = d.get? other := by
  induction d with
  | nil => simp [insert, get?_cons, h]
  | cons e rest ih =>
    unfold insert
    split
    · next heq => rw [get?_cons, get?_cons, if_neg h, if_neg (heq ▸ h)]
    · split
      · rw [get?_cons, if_neg h]
      · rw [get?_cons, get?_cons, ih]

theorem get?_put_self (d : Dict α) (key : String) (value : α) :
    (d.put key value).get? key = some value := by
  induction d with
  | nil => simp [put, get?_cons]
  | cons e rest ih =>
    unfold put
    split
    · next heq => rw [get?_cons, if_pos heq]
    · next hne => rw [get?_cons, if_neg hne, ih]

theorem get?_put_of_ne (d : Dict α) {key other : String} (value : α) (h : other ≠ key) :
    (d.put key value).get? other = d.get? other := by
  induction d with
  | nil => simp [put, get?_cons, h]
  | cons e rest ih =>
    unfold put
    split
    · next heq => rw [get?_cons, get?_cons, if_neg (heq ▸ h), if_neg (heq ▸ h)]
    · rw [get?_cons, get?_cons, ih]

theorem mem_put {d : Dict α} {key : String} {value : α} {e : String × α}
    (h : e ∈ d.put key value) : e ∈ d ∨ e.2 = value := by
  induction d with
  | nil => exact Or.inr (by simp_all [put])
  | cons first rest ih =>
    unfold put at h
    split at h
    · rcases List.mem_cons.mp h with rfl | hrest
      · exact Or.inr rfl
      · exact Or.inl (List.mem_cons_of_mem _ hrest)
    · rcases List.mem_cons.mp h with rfl | hrest
      · exact Or.inl List.mem_cons_self
      · exact (ih hrest).imp_left (List.mem_cons_of_mem _)

theorem get?_erase_self (d : Dict α) (key : String) : (d.erase key).get? key = none := by
  unfold get? erase
  rw [List.lookup_eq_none_iff]
  intro e he
  have hkey : e.1 ≠ key := bne_iff_ne.mp (List.mem_filter.mp he).2
  exact bne_iff_ne.mpr hkey.symm

/-! ## Maps of the values -/

theorem get?_map {β : Type} (f : α → β) (d : Dict α) (key : String) :
    get? (d.map fun e => (e.1, f e.2)) key = (d.get? key).map f := by
  induction d with
  | nil => rfl
  | cons e rest ih =>
    rw [List.map_cons, get?_cons, get?_cons, ih]
    split <;> rfl

theorem put_map {β : Type} (f : α → β) (d : Dict α) (key : String) (value : α) :
    (d.put key value).map (fun e => (e.1, f e.2)) =
      put (d.map fun e => (e.1, f e.2)) key (f value) := by
  induction d with
  | nil => rfl
  | cons e rest ih =>
    rw [put, List.map_cons, put, ← ih]
    split <;> rfl

end Dict

end Conform
