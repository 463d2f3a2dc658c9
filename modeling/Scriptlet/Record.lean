/-!
# Records

A record gives values to names: the fields of an object, the bindings of a
context, the variables of running loops. Its entries are kept in the order of
their names, so a record is determined by what its names stand for and can be
written out as it is.

## Main definitions

* `Record`: Names with values, in the order of the names.
* `Record.get?`, `Record.contains`: What a name stands for.
* `Record.insert`, `Record.erase`: Changing one name.
* `Record.ofList`: The record that a list of entries writes, the last one for a name counting.

## Theorems

* `Record.get?_insert`: A written name stands for what was written, all others for what they did.
* `Record.get?_erase`: An erased name stands for nothing, all others for what they did.
* `Record.contains_insert`, `Record.contains_erase`: The names after one was written or erased.
* `Record.entries_ofList`: Entries in the order of their names are the record that they write.
-/

namespace Scriptlet

/-- Names with values, in the order of the names. -/
structure Record (α : Type) where
  entries : List (String × α)
  sorted : entries.Pairwise (fun a b => a.1 < b.1)

namespace Record

variable {α : Type}

/-! ### Lists of entries -/

/-- The value of the first entry for a name. -/
def lookupEntry (name : String) : List (String × α) → Option α
  | [] => none
  | (key, value) :: entries => if name = key then some value else lookupEntry name entries

/-- Writes an entry at its place. -/
def insertEntry (name : String) (value : α) : List (String × α) → List (String × α)
  | [] => [(name, value)]
  | (key, old) :: entries =>
    if name < key then (name, value) :: (key, old) :: entries
    else if name = key then (name, value) :: entries
    else (key, old) :: insertEntry name value entries

theorem mem_insertEntry {name : String} {value : α} {entries : List (String × α)}
    {e : String × α} (h : e ∈ insertEntry name value entries) :
    e = (name, value) ∨ e ∈ entries := by
  induction entries with
  | nil => simpa [insertEntry] using h
  | cons head tail ih =>
    simp only [insertEntry] at h
    split at h
    · simpa using h
    · split at h
      · rcases List.mem_cons.1 h with h | h
        · exact .inl h
        · exact .inr (List.mem_cons_of_mem _ h)
      · rcases List.mem_cons.1 h with h | h
        · exact .inr (h ▸ List.mem_cons_self)
        · exact (ih h).imp_right (List.mem_cons_of_mem _)

theorem pairwise_insertEntry {entries : List (String × α)}
    (h : entries.Pairwise (fun a b => a.1 < b.1)) (name : String) (value : α) :
    (insertEntry name value entries).Pairwise (fun a b => a.1 < b.1) := by
  induction entries with
  | nil => simp [insertEntry]
  | cons head tail ih =>
    obtain ⟨hhead, htail⟩ := List.pairwise_cons.1 h
    simp only [insertEntry]
    split
    · next hlt =>
      refine List.pairwise_cons.2 ⟨fun e he => ?_, h⟩
      rcases List.mem_cons.1 he with rfl | he
      · exact hlt
      · exact String.lt_trans hlt (hhead e he)
    · next hge =>
      split
      · next heq => exact List.pairwise_cons.2 ⟨fun e he => heq ▸ hhead e he, htail⟩
      · next hne =>
        refine List.pairwise_cons.2 ⟨fun e he => ?_, ih htail⟩
        rcases mem_insertEntry he with rfl | he
        · grind
        · exact hhead e he

theorem lookupEntry_insertEntry (entries : List (String × α)) (name other : String) (value : α) :
    lookupEntry other (insertEntry name value entries) =
      if other = name then some value else lookupEntry other entries := by
  induction entries with
  | nil => simp [insertEntry, lookupEntry]
  | cons head tail ih => grind [insertEntry, lookupEntry]

/-- Behind smaller names, an entry is written at the end. -/
theorem insertEntry_of_lt {name : String} {value : α} {entries : List (String × α)}
    (h : ∀ e ∈ entries, e.1 < name) :
    insertEntry name value entries = entries ++ [(name, value)] := by
  induction entries with
  | nil => rfl
  | cons head tail ih =>
    have hlt := h head List.mem_cons_self
    have hne : name ≠ head.1 := fun he => String.lt_irrefl _ (he ▸ hlt)
    have hge : ¬ name < head.1 := fun hgt => String.lt_irrefl _ (String.lt_trans hgt hlt)
    simp only [insertEntry, if_neg hge, if_neg hne, List.cons_append]
    rw [ih fun e he => h e (List.mem_cons_of_mem _ he)]

/-! ### Records -/

/-- The record without entries. -/
def empty : Record α where
  entries := []
  sorted := .nil

/-- The value that a name stands for. -/
def get? (r : Record α) (name : String) : Option α :=
  lookupEntry name r.entries

/-- Whether a name stands for anything. -/
def contains (r : Record α) (name : String) : Bool :=
  (r.get? name).isSome

/-- The record in which a name stands for a value. -/
def insert (r : Record α) (name : String) (value : α) : Record α where
  entries := insertEntry name value r.entries
  sorted := pairwise_insertEntry r.sorted name value

/-- The record in which a name stands for nothing. -/
def erase (r : Record α) (name : String) : Record α where
  entries := r.entries.filter (·.1 ≠ name)
  sorted := r.sorted.filter _

/-- The number of names. -/
def size (r : Record α) : Nat :=
  r.entries.length

/-- The names. -/
def names (r : Record α) : List String :=
  r.entries.map (·.1)

/-- The record that a list of entries writes one after another. -/
def ofList (entries : List (String × α)) : Record α :=
  entries.foldl (fun r e => r.insert e.1 e.2) empty

@[simp]
theorem get?_empty (name : String) : (empty : Record α).get? name = none := rfl

theorem get?_insert (r : Record α) (name other : String) (value : α) :
    (r.insert name value).get? other = if other = name then some value else r.get? other :=
  lookupEntry_insertEntry r.entries name other value

theorem get?_erase (r : Record α) (name other : String) :
    (r.erase name).get? other = if other = name then none else r.get? other := by
  obtain ⟨entries, sorted⟩ := r
  simp only [get?, erase]
  clear sorted
  induction entries with
  | nil => simp [lookupEntry]
  | cons head tail ih => grind [lookupEntry]

theorem contains_insert (r : Record α) (name other : String) (value : α) :
    (r.insert name value).contains other = (decide (other = name) || r.contains other) := by
  unfold contains
  rw [get?_insert]
  by_cases h : other = name <;> simp [h]

theorem contains_erase (r : Record α) (name other : String) :
    (r.erase name).contains other = (!decide (other = name) && r.contains other) := by
  unfold contains
  rw [get?_erase]
  by_cases h : other = name <;> simp [h]

/-- Writing a name that is there adds no name. -/
theorem contains_insert_of_contains {r : Record α} {name : String} (h : r.contains name = true)
    (value : α) : (r.insert name value).contains = r.contains := by
  funext other
  rw [contains_insert]
  by_cases hother : other = name
  · rw [hother, h, Bool.or_true]
  · simp [hother]

/-- Entries in the order of their names, written behind those of a record, are its entries behind
    them. -/
theorem entries_foldl_insert (r : Record α) {entries : List (String × α)}
    (h : (r.entries ++ entries).Pairwise (fun a b => a.1 < b.1)) :
    (entries.foldl (fun r e => r.insert e.1 e.2) r).entries = r.entries ++ entries := by
  induction entries generalizing r with
  | nil => simp
  | cons e entries ih =>
    have hinsert : (r.insert e.1 e.2).entries = r.entries ++ [e] :=
      insertEntry_of_lt fun g hg => (List.pairwise_append.1 h).2.2 g hg e List.mem_cons_self
    have happend : (r.insert e.1 e.2).entries ++ entries = r.entries ++ e :: entries := by
      rw [hinsert, List.append_assoc, List.singleton_append]
    rw [List.foldl_cons, ih _ (happend ▸ h), happend]

theorem entries_ofList {entries : List (String × α)}
    (h : entries.Pairwise (fun a b => a.1 < b.1)) : (ofList entries).entries = entries :=
  entries_foldl_insert empty h

end Record

end Scriptlet
