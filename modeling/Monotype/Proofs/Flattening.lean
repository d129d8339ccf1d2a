import Monotype.Env
import Mathlib.Data.List.Induction

/-! A chain of scopes and its flattened map say the same. The chain is searched from the inside out
and the search stops at the first binding, while flattening goes from the outside in and overwrites
values in place. Both come to the last binding of a key in the row of all bindings, from the
outermost to the innermost; and a key keeps the place that its first binding gave it. Values are not
looked at, so a value that stands for nothing is a value like any other. -/
namespace Monotype

universe u v

variable {κ : Type u} {ν : Type v} [DecidableEq κ]

namespace OrderedMap

theorem ofList_snoc (es : List (κ × ν)) (e : κ × ν) :
    ofList (es ++ [e]) = (ofList es).insert e.1 e.2 := List.foldl_append

theorem insertAll_ofList (es es' : List (κ × ν)) :
    (ofList es).insertAll es' = ofList (es ++ es') := List.foldl_append.symm

/-- The last entry of a key counts. -/
theorem find?_ofList (es : List (κ × ν)) (k : κ) : (ofList es).find? k = es.reverse.lookup k := by
  induction es using List.reverseRecOn with
  | nil => rfl
  | append_singleton es e ih =>
    obtain ⟨a, b⟩ := e
    rw [ofList_snoc, find?_insert, ih, List.reverse_append, List.reverse_singleton,
      List.singleton_append, List.lookup_cons]
    by_cases h : k = a
    · simp [h]
    · rw [if_neg h, beq_false_of_ne h]

/-- The first entry of a key gives it its place. -/
theorem keys_ofList (es : List (κ × ν)) : (ofList es).keys = (es.map Prod.fst).eraseDups := by
  induction es using List.reverseRecOn with
  | nil => rfl
  | append_singleton es e ih =>
    rw [ofList_snoc, keys_insert, ih, List.map_append, List.eraseDups_append]
    by_cases h : e.1 ∈ es.map Prod.fst
    · simp [List.cons_removeAll, h]
    · simp [List.cons_removeAll, List.eraseDups_cons, h]

theorem find?_of_mem (m : OrderedMap κ ν) {e : κ × ν} (he : e ∈ m.entries) :
    m.find? e.1 = some e.2 := by
  obtain ⟨es, hnodup⟩ := m
  obtain ⟨before, after, rfl⟩ := List.append_of_mem he
  refine List.lookup_eq_some_iff.2 ⟨before, after, rfl, fun p hp => ?_⟩
  rw [List.map_append, List.nodup_append] at hnodup
  have hne := hnodup.2.2 p.1 (List.mem_map_of_mem hp) e.1 (by simp)
  simpa using hne.symm

/-- The entries are the keys with their values. -/
theorem entries_eq (m : OrderedMap κ ν) :
    m.entries.map (fun e => (e.1, some e.2)) = m.keys.map fun k => (k, m.find? k) := by
  rw [keys, List.map_map]
  refine List.map_congr_left fun e he => ?_
  rw [Function.comp_apply, m.find?_of_mem he]

end OrderedMap

namespace Env

/-! ### Two ways to the last binding -/

omit [DecidableEq κ] in
theorem extendAll_eq (env : Env κ ν) (bindings : List (κ × ν)) :
    env.extendAll bindings = ⟨env.globals, bindings.reverse ++ env.locals⟩ := by
  induction bindings generalizing env with
  | nil => rfl
  | cons b bindings ih =>
    rw [List.reverse_cons, List.append_assoc]
    exact ih (env.extend b.1 b.2)

/-- From the inside out. -/
theorem find?_extendAll_ofList (start bindings : List (κ × ν)) (k : κ) :
    ((ofList start).extendAll bindings).find? k = (start ++ bindings).reverse.lookup k := by
  rw [extendAll_eq, List.reverse_append, List.lookup_append, ← OrderedMap.find?_ofList start]
  simp only [find?, ofList, List.append_nil]

/-- From the outside in. -/
theorem flatten_extendAll_ofList (start bindings : List (κ × ν)) :
    ((ofList start).extendAll bindings).flatten = OrderedMap.ofList (start ++ bindings) := by
  rw [extendAll_eq, ← OrderedMap.insertAll_ofList]
  simp only [flatten, ofList, List.append_nil, List.reverse_reverse]

/-! ### Agreement -/

/-- The chain and its flattened map say the same, and they say it of the bindings, which are given
from the outermost to the innermost. -/
structure Agrees (env : Env κ ν) (bindings : List (κ × ν)) : Prop where
  contains_iff : ∀ k, env.contains k = true ↔ k ∈ env.flatten.keys
  /-- A key that is not there is refused by name. -/
  get_eq : ∀ k, env.get k =
    match env.flatten.find? k with
    | some v => .ok v
    | none => .error ⟨k⟩
  getD_eq : ∀ k default, env.getD k default = (env.flatten.find? k).getD default
  /-- The keys stand in the order of their first bindings, each with the value of its last one. -/
  entries_eq : env.flatten.entries.map (fun e => (e.1, some e.2)) =
    (bindings.map Prod.fst).eraseDups.map fun k => (k, bindings.reverse.lookup k)

theorem find?_flatten (start bindings : List (κ × ν)) (k : κ) :
    ((ofList start).extendAll bindings).flatten.find? k =
      ((ofList start).extendAll bindings).find? k := by
  rw [flatten_extendAll_ofList, OrderedMap.find?_ofList, find?_extendAll_ofList]

/-- A chain that starts with any scope and is extended by any bindings agrees with its flattened
map. -/
theorem extendAll_agrees (start bindings : List (κ × ν)) :
    Agrees ((ofList start).extendAll bindings) (start ++ bindings) := by
  have hfind := find?_flatten start bindings
  refine ⟨fun k => ?_, fun k => ?_, fun k default => ?_, ?_⟩
  · rw [OrderedMap.mem_keys_iff, hfind, contains, Option.isSome_iff_exists]
  · rw [hfind]
    rfl
  · rw [hfind, getD]
  · rw [OrderedMap.entries_eq, flatten_extendAll_ofList, OrderedMap.keys_ofList]
    simp only [OrderedMap.find?_ofList]

example :
    ((ofList [("x", some 1), ("y", some 2)]).extendAll [("z", none), ("x", none)]).flatten.entries =
      [("x", none), ("y", some 2), ("z", none)] := by decide

end Env

end Monotype
