/-!
# Tables

A table binds names to values and keeps the names in the order of their first binding: binding a
name again replaces the value where it stands. The main statements say what a look-up finds after
`insert` (`find?_insert`) and which names a table has then (`keys_insert`).
-/

namespace Attestation

/-- Names bound to values, in the order of their first binding. -/
abbrev Table (α : Type) := List (String × α)

namespace Table

variable {α : Type}

/-- The value bound to a name. -/
def find? (name : String) : Table α → Option α
  | [] => none
  | (key, value) :: rest => if key = name then some value else find? name rest

/-- The names of a table, in order. -/
def keys (table : Table α) : List String :=
  table.map (·.1)

/-- Binds a name: in place if it is bound already, else behind all others. -/
def insert (name : String) (value : α) : Table α → Table α
  | [] => [(name, value)]
  | (key, old) :: rest =>
    if key = name then (name, value) :: rest else (key, old) :: insert name value rest

/-- Removes the first binding of a name. -/
def erase (name : String) : Table α → Table α
  | [] => []
  | (key, value) :: rest => if key = name then rest else (key, value) :: erase name rest

/-- The table that results from binding each entry in turn. -/
def ofList (entries : List (String × α)) : Table α :=
  entries.foldl (fun table (name, value) => table.insert name value) []

theorem find?_insert (table : Table α) (name other : String) (value : α) :
    (table.insert name value).find? other = if name = other then some value else table.find? other := by
  induction table with
  | nil => simp [insert, find?]
  | cons entry rest ih =>
    obtain ⟨key, old⟩ := entry
    by_cases h : key = name
    · subst h
      by_cases h' : key = other <;> simp [insert, find?, h']
    · by_cases h' : key = other
      · subst h'
        have : name ≠ key := fun e => h e.symm
        simp [insert, find?, h, this]
      · simp [insert, find?, h, h', ih]

theorem keys_insert (table : Table α) (name : String) (value : α) :
    (table.insert name value).keys =
      if name ∈ table.keys then table.keys else table.keys ++ [name] := by
  induction table with
  | nil => simp [insert, keys]
  | cons entry rest ih =>
    obtain ⟨key, old⟩ := entry
    simp only [keys] at ih
    by_cases h : key = name
    · simp [insert, keys, h]
    · have h' : name ≠ key := fun e => h e.symm
      by_cases hm : name ∈ rest.map (·.1)
      · simp only [insert, keys, h, if_false, List.map_cons, List.mem_cons, h', false_or, hm,
          if_true, ih]
      · simp only [insert, keys, h, if_false, List.map_cons, List.mem_cons, h', false_or, hm,
          ih, List.cons_append]

theorem insert_of_notMem {table : Table α} {name : String} (h : name ∉ table.keys) (value : α) :
    table.insert name value = table ++ [(name, value)] := by
  induction table with
  | nil => rfl
  | cons entry rest ih =>
    obtain ⟨key, old⟩ := entry
    obtain ⟨hkey, hrest⟩ := not_or.1 fun hmem => h (List.mem_cons.2 hmem)
    rw [insert, if_neg (Ne.symm hkey), ih hrest, List.cons_append]

theorem mem_of_find? {t : Table α} {name : String} {a : α}
    (h : t.find? name = some a) : (name, a) ∈ t := by
  induction t with
  | nil => cases h
  | cons entry rest ih =>
    obtain ⟨key, value⟩ := entry
    by_cases hk : key = name
    · simp only [find?, hk, if_true, Option.some.injEq] at h
      simp [hk, h]
    · simp only [find?, hk, if_false] at h
      exact List.mem_cons_of_mem _ (ih h)

theorem find?_of_mem {t : Table α} (ht : t.keys.Nodup) {name : String} {a : α}
    (h : (name, a) ∈ t) : t.find? name = some a := by
  induction t with
  | nil => cases h
  | cons entry rest ih =>
    obtain ⟨key, b⟩ := entry
    obtain ⟨hkey, hrest⟩ := List.nodup_cons.1 ht
    rw [find?]
    rcases List.mem_cons.1 h with heq | h
    · cases heq
      exact if_pos rfl
    · have hne : key ≠ name := by
        rintro rfl
        exact hkey (List.mem_map.2 ⟨_, h, rfl⟩)
      rw [if_neg hne, ih hrest h]

theorem find?_eq_none_iff {t : Table α} {name : String} :
    t.find? name = none ↔ name ∉ t.keys := by
  induction t with
  | nil => simp [find?, keys]
  | cons entry rest ih =>
    obtain ⟨key, value⟩ := entry
    by_cases h : key = name
    · simp [find?, keys, h]
    · simpa [find?, keys, h, Ne.symm h] using ih

theorem find?_filter (t : Table α) (kept : String → Bool) (name : String) :
    Table.find? name (t.filter fun entry => kept entry.1) =
      if kept name then t.find? name else none := by
  induction t with
  | nil => simp [find?]
  | cons entry rest ih =>
    obtain ⟨key, value⟩ := entry
    by_cases hkey : key = name
    · subst hkey
      cases h : kept key <;> simp [h, find?, ih]
    · cases h : kept key <;> simp [h, find?, hkey, ih]

/-! ## Tables with other values -/

/-- The table with what a function makes of each value. -/
def mapValues {β : Type} (f : α → β) (table : Table α) : Table β :=
  table.map fun entry => (entry.1, f entry.2)

variable {β : Type} (f : α → β) (table : Table α)

theorem find?_mapValues (name : String) :
    (table.mapValues f).find? name = (table.find? name).map f := by
  induction table with
  | nil => rfl
  | cons entry rest ih =>
    obtain ⟨key, value⟩ := entry
    by_cases h : key = name
    · simp [mapValues, find?, h]
    · simpa [mapValues, find?, h] using ih

theorem insert_mapValues (name : String) (value : α) :
    (table.mapValues f).insert name (f value) = (table.insert name value).mapValues f := by
  induction table with
  | nil => rfl
  | cons entry rest ih =>
    obtain ⟨key, old⟩ := entry
    by_cases h : key = name
    · simp [mapValues, insert, h]
    · simpa [mapValues, insert, h] using ih

end Table

end Attestation
