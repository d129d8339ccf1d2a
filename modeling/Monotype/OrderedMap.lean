/-! A finite map that keeps its keys in the order in which they first arrived. Writing to a key that
is already there changes its value and keeps its place. -/
namespace Monotype

universe u v

/-- Entries in order of arrival, no key twice. -/
structure OrderedMap (κ : Type u) (ν : Type v) where
  entries : List (κ × ν)
  nodup : (entries.map Prod.fst).Nodup

namespace OrderedMap

variable {κ : Type u} {ν : Type v}

/-- Replaces the value of `k` where it stands, or appends it. -/
def put [DecidableEq κ] (k : κ) (v : ν) : List (κ × ν) → List (κ × ν)
  | [] => [(k, v)]
  | (k', v') :: rest => if k' = k then (k, v) :: rest else (k', v') :: put k v rest

theorem map_fst_put [DecidableEq κ] (k : κ) (v : ν) (es : List (κ × ν)) :
    (put k v es).map Prod.fst =
      if k ∈ es.map Prod.fst then es.map Prod.fst else es.map Prod.fst ++ [k] := by
  induction es with
  | nil => simp [put]
  | cons e rest ih =>
    obtain ⟨k', v'⟩ := e
    by_cases h : k' = k
    · simp [put, h]
    · have h' : ¬k = k' := fun e => h e.symm
      simp only [put, h, if_false, List.map_cons, ih, List.mem_cons, h', false_or]
      split <;> simp

theorem nodup_put [DecidableEq κ] (k : κ) (v : ν) {es : List (κ × ν)}
    (h : (es.map Prod.fst).Nodup) : ((put k v es).map Prod.fst).Nodup := by
  rw [map_fst_put]
  split
  · exact h
  · rename_i hk
    refine List.nodup_append.2 ⟨h, by simp, ?_⟩
    intro a ha b hb
    rw [List.mem_singleton.1 hb]
    exact fun e => hk (e ▸ ha)

/-- The map without keys. -/
def empty : OrderedMap κ ν := ⟨[], by simp⟩

instance : Inhabited (OrderedMap κ ν) := ⟨empty⟩

def keys (m : OrderedMap κ ν) : List κ := m.entries.map Prod.fst

def values (m : OrderedMap κ ν) : List ν := m.entries.map Prod.snd

def size (m : OrderedMap κ ν) : Nat := m.entries.length

variable [DecidableEq κ]

def find? (m : OrderedMap κ ν) (k : κ) : Option ν := m.entries.lookup k

def contains (m : OrderedMap κ ν) (k : κ) : Bool := (m.find? k).isSome

def insert (m : OrderedMap κ ν) (k : κ) (v : ν) : OrderedMap κ ν :=
  ⟨put k v m.entries, nodup_put k v m.nodup⟩

/-- Later entries win, and a repeated key keeps the place of its first entry. -/
def insertAll (m : OrderedMap κ ν) (es : List (κ × ν)) : OrderedMap κ ν :=
  es.foldl (fun m e => m.insert e.1 e.2) m

def ofList (es : List (κ × ν)) : OrderedMap κ ν := empty.insertAll es

/-- Whether two maps have the same keys with the same values, in whatever order. -/
def sameEntries [BEq ν] (a b : OrderedMap κ ν) : Bool :=
  a.size == b.size && a.entries.all fun e => b.find? e.1 == some e.2

theorem keys_insert (m : OrderedMap κ ν) (k : κ) (v : ν) :
    (m.insert k v).keys = if k ∈ m.keys then m.keys else m.keys ++ [k] :=
  map_fst_put k v m.entries

theorem find?_insert (m : OrderedMap κ ν) (k k' : κ) (v : ν) :
    (m.insert k v).find? k' = if k' = k then some v else m.find? k' := by
  obtain ⟨es, h⟩ := m
  simp only [insert, find?]
  clear h
  induction es with
  | nil =>
    by_cases h : k' = k
    · simp [put, h]
    · simp [put, h, List.lookup_cons, beq_false_of_ne h]
  | cons e rest ih =>
    obtain ⟨a, b⟩ := e
    by_cases ha : a = k
    · subst ha
      by_cases h : k' = a
      · simp [put, h]
      · simp [put, h, List.lookup_cons, beq_false_of_ne h]
    · by_cases h : k' = a
      · subst h
        simp [put, ha]
      · simp only [put, ha, if_false, List.lookup_cons, beq_false_of_ne h, ih]

theorem mem_keys_iff (m : OrderedMap κ ν) (k : κ) : k ∈ m.keys ↔ ∃ v, m.find? k = some v := by
  obtain ⟨es, h⟩ := m
  simp only [keys, find?]
  clear h
  induction es with
  | nil => simp
  | cons e rest ih =>
    obtain ⟨a, b⟩ := e
    by_cases hk : k = a
    · simp [hk]
    · simp only [List.map_cons, List.mem_cons, hk, false_or, ih, List.lookup_cons,
        beq_false_of_ne hk]

end OrderedMap

end Monotype
