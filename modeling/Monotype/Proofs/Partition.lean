import Monotype.Proofs.Ways
import Mathlib.Data.Set.Card
import Mathlib.Logic.Relation

/-! Disjoint sets keep the partition that their unions make. A run is any sequence of operations
from the empty forest on. Looking up, asking and listing change no root, and a union makes one class
of two, so after every run two elements have the same root exactly when the unions of the run
connect them. The recorded sizes are then the sizes of the connected classes, and listing the sets
lists these classes. -/
namespace Monotype.Forest

universe u v

variable {α : Type u}

/-! ### Connected elements -/

/-- Pairs, each taken in one direction or the other, lead from one element to the other. -/
def Connected (ps : List (α × α)) : α → α → Prop := Relation.EqvGen fun x y => (x, y) ∈ ps

theorem Connected.mono {ps qs : List (α × α)} (h : ps ⊆ qs) {a b : α} (hab : Connected ps a b) :
    Connected qs a b :=
  Relation.EqvGen.mono (fun _ _ hp => h hp) a b hab

/-- What agrees on every pair agrees on connected elements. -/
theorem Connected.congr {β : Type v} {ps : List (α × α)} {v : α → β}
    (hv : ∀ p ∈ ps, v p.1 = v p.2) {a b : α} (h : Connected ps a b) : v a = v b := by
  induction h with
  | rel x y hp => exact hv (x, y) hp
  | refl x => rfl
  | symm x y _ ih => exact ih.symm
  | trans x y z _ _ hxy hyz => exact hxy.trans hyz

variable [DecidableEq α] {f f' : Forest α}

/-! ### Unions -/

/-- `f'` has one set in place of those of `a` and `b`, and otherwise the sets of `f`. -/
structure United (f f' : Forest α) (a b : α) : Prop where
  sound : f'.Sound
  same_iff : ∀ x y, f'.rootOf x = f'.rootOf y ↔ f.rootOf x = f.rootOf y ∨
    f.rootOf x = f.rootOf a ∧ f.rootOf y = f.rootOf b ∨
    f.rootOf x = f.rootOf b ∧ f.rootOf y = f.rootOf a

theorem United.symm {a b : α} (h : United f f' a b) : United f f' b a := by
  refine ⟨h.sound, fun x y => ?_⟩
  rw [h.same_iff, or_comm (a := _ ∧ _)]

section Merge

variable {a b : α} {m n : Nat} (ha : f.cell? a = some (.root m)) (hb : f.cell? b = some (.root n))
  (hne : a ≠ b) (hf : f.Sound)
include ha hb hne hf

theorem united_link : United f (f.link a b) a b := by
  have hra : f.rootOf a = a := (Way.root ha).rootOf
  have hrb : f.rootOf b = b := (Way.root hb).rootOf
  refine ⟨sound_link ha hb hne hf, fun x y => ?_⟩
  rw [rootOf_link ha hb hne hf, rootOf_link ha hb hne hf, hra, hrb]
  by_cases hx : f.rootOf x = a <;> by_cases hy : f.rootOf y = a
  · simp [hx, hy]
  · have hxy : a ≠ f.rootOf y := fun h => hy h.symm
    simp only [hx, hy, if_true, if_false, hxy, hne, true_and, false_and, false_or, or_false]
    exact eq_comm
  · simp [hx, hy, hne]
  · simp [hx, hy]

theorem united_merge : United f (f.merge a b) a b := by
  unfold merge
  split
  · exact (united_link hb ha hne.symm hf).symm
  · exact united_link ha hb hne hf

end Merge

theorem join_of_mem {a b : α} (ha : a ∈ f.elements) (hb : b ∈ f.elements) :
    f.join a b = (.ok (), f.merge a b) := by
  obtain ⟨c, hc⟩ := mem_elements_iff.1 ha
  obtain ⟨d, hd⟩ := mem_elements_iff.1 hb
  simp only [join, hc, hd]

/-- Joining refuses the first element that is not there, and then changes nothing. -/
theorem join_of_notMem {a b : α} (h : ¬(a ∈ f.elements ∧ b ∈ f.elements)) :
    f.join a b = (.error (.unknown (if a ∈ f.elements then b else a)), f) := by
  by_cases ha : a ∈ f.elements
  · have hb : b ∉ f.elements := fun hb => h ⟨ha, hb⟩
    obtain ⟨c, hc⟩ := mem_elements_iff.1 ha
    simp only [join, hc, cell?_eq_none hb, if_pos ha]
  · simp only [join, cell?_eq_none ha, if_neg ha]

theorem Looked.cell?_rootOf (h : Looked f f') {e : α} (he : e ∈ f'.elements) :
    ∃ n, f'.cell? (f.rootOf e) = some (.root n) := by
  obtain ⟨l, way⟩ := h.sound.way_rootOf he
  rw [← h.rootOf]
  exact way.cell?_root

/-- After two look-ups both elements are there. -/
theorem looked_two (hf : f.Sound) (a b : α) :
    Looked f ((f.root a).2.root b).2 ∧ a ∈ ((f.root a).2.root b).2.elements ∧
      b ∈ ((f.root a).2.root b).2.elements := by
  have h := looked_root hf a
  refine ⟨h.trans (looked_root h.sound b), ?_, ?_⟩
  · rw [h.sound.mem_elements_root, hf.mem_elements_root]
    exact .inl (.inr rfl)
  · rw [h.sound.mem_elements_root]
    exact .inr rfl

theorem union_eq (hf : f.Sound) (a b : α) :
    f.union a b = if f.rootOf a = f.rootOf b then (.ok (), ((f.root a).2.root b).2)
      else ((f.root a).2.root b).2.join (f.rootOf a) (f.rootOf b) := by
  rw [← hf.rootOf_root a b]
  rfl

/-- A union joins two roots, if it joins at all, so nothing is refused. -/
theorem union_spec (hf : f.Sound) (a b : α) :
    (f.union a b).1 = .ok () ∧ United f (f.union a b).2 a b := by
  obtain ⟨hlooked, ha, hb⟩ := looked_two hf a b
  rw [union_eq hf]
  generalize ((f.root a).2.root b).2 = f₂ at hlooked ha hb
  split
  · rename_i heq
    refine ⟨rfl, hlooked.sound, fun x y => ?_⟩
    rw [hlooked.rootOf, heq]
    constructor
    · exact .inl
    · rintro (h | ⟨hx, hy⟩ | ⟨hx, hy⟩)
      · exact h
      · rw [hx, hy]
      · rw [hx, hy]
  · rename_i hne
    obtain ⟨m, hm⟩ := hlooked.cell?_rootOf ha
    obtain ⟨n, hn⟩ := hlooked.cell?_rootOf hb
    have hmerge := united_merge hm hn hne hlooked.sound
    rw [join_of_mem (mem_elements hm) (mem_elements hn)]
    refine ⟨rfl, hmerge.sound, fun x y => ?_⟩
    have hsame := hmerge.same_iff x y
    rw [(Way.root hm).rootOf, (Way.root hn).rootOf, hlooked.rootOf] at hsame
    exact hsame

/-! ### Runs -/

/-- One use of disjoint sets. -/
inductive Operation (α : Type u) where
  | add (e : α)
  | root (e : α)
  | contains (e : α)
  | sameSet (es : List α)
  | sets
  | union (a b : α)

/-- The forest that an operation leaves. -/
def Operation.run (f : Forest α) : Operation α → Forest α
  | .add e => f.add e
  | .root e => (f.root e).2
  | .contains _ => f
  | .sameSet es => (f.sameSet es).2
  | .sets => f.sets.2
  | .union a b => (f.union a b).2

/-- The forest after the operations, from the empty one on. -/
def after (ops : List (Operation α)) : Forest α := ops.foldl Operation.run .empty

/-- The pair that an operation puts into one set. -/
def Operation.pair? : Operation α → Option (α × α)
  | .union a b => some (a, b)
  | _ => none

/-- The pairs that the operations put into one set. -/
def pairs (ops : List (Operation α)) : List (α × α) := ops.filterMap Operation.pair?

/-- Elements have the same root exactly when the pairs connect them. -/
structure Represents (f : Forest α) (ps : List (α × α)) : Prop where
  sound : f.Sound
  same_iff : ∀ a b, f.rootOf a = f.rootOf b ↔ Connected ps a b

theorem represents_empty : Represents (.empty : Forest α) [] := by
  refine ⟨sound_empty, fun a b => ?_⟩
  rw [rootOf_empty, rootOf_empty]
  constructor
  · rintro rfl
    exact .refl a
  · exact Connected.congr (v := id) (by simp)

namespace Represents

variable {ps : List (α × α)} (h : Represents f ps)
include h

theorem looked (hf' : Looked f f') : Represents f' ps :=
  ⟨hf'.sound, fun a b => by rw [hf'.rootOf, h.same_iff]⟩

theorem union (a b : α) : Represents (f.union a b).2 (ps ++ [(a, b)]) := by
  obtain ⟨-, hunited⟩ := union_spec h.sound a b
  have hold : ∀ {x y : α}, f.rootOf x = f.rootOf y → Connected (ps ++ [(a, b)]) x y :=
    fun hxy => ((h.same_iff _ _).1 hxy).mono (List.subset_append_left ..)
  have hnew : Connected (ps ++ [(a, b)]) a b := .rel a b (by simp)
  refine ⟨hunited.sound, fun x y => ⟨fun hxy => ?_, fun hxy => ?_⟩⟩
  · rcases (hunited.same_iff x y).1 hxy with hxy | ⟨hx, hy⟩ | ⟨hx, hy⟩
    · exact hold hxy
    · exact ((hold hx).trans _ _ _ hnew).trans _ _ _ (hold hy.symm)
    · exact ((hold hx).trans _ _ _ (hnew.symm _ _)).trans _ _ _ (hold hy.symm)
  · refine hxy.congr fun p hp => ?_
    rw [hunited.same_iff]
    rcases List.mem_append.1 hp with hp | hp
    · exact .inl ((h.same_iff p.1 p.2).2 (.rel _ _ hp))
    · rw [List.mem_singleton.1 hp]
      exact .inr (.inl ⟨rfl, rfl⟩)

theorem run (o : Operation α) : Represents (o.run f) (ps ++ o.pair?.toList) := by
  have hlooked : ∀ {f' : Forest α}, Looked f f' → Represents f' (ps ++ []) := by
    intro f' hf'
    rw [List.append_nil]
    exact h.looked hf'
  cases o with
  | add e => exact hlooked (looked_add h.sound e)
  | root e => exact hlooked (looked_root h.sound e)
  | contains e => exact hlooked (.refl h.sound)
  | sameSet es => exact hlooked (looked_sameSet h.sound es)
  | sets => exact hlooked (looked_sets h.sound)
  | union a b => exact h.union a b

theorem foldl (ops : List (Operation α)) : Represents (ops.foldl Operation.run f)
    (ps ++ pairs ops) := by
  induction ops generalizing f ps with
  | nil => simpa [pairs] using h
  | cons o ops ih =>
    have hpairs : pairs (o :: ops) = o.pair?.toList ++ pairs ops := by
      rw [pairs, pairs, List.filterMap_cons]
      cases o.pair? <;> rfl
    rw [hpairs, ← List.append_assoc]
    exact ih (h.run o)

end Represents

theorem represents_after (ops : List (Operation α)) : Represents (after ops) (pairs ops) :=
  represents_empty.foldl ops

/-! ### Listing the sets -/

omit [DecidableEq α] in
theorem nodup_elements (f : Forest α) : f.elements.Nodup := f.cells.nodup

theorem gather_cons (f : Forest α) (sets : OrderedMap α (List α)) (e : α) (es : List α) :
    gather f sets (e :: es) = gather (f.root e).2
      (sets.insert (f.rootOf e) ((sets.find? (f.rootOf e)).getD [] ++ [e])) es := rfl

/-- Where only elements are looked up, no element is added. -/
theorem elements_gather {es : List α} (hes : ∀ e ∈ es, e ∈ f.elements) (hf : f.Sound)
    (sets : OrderedMap α (List α)) : (gather f sets es).2.elements = f.elements := by
  induction es generalizing f sets with
  | nil => rfl
  | cons e es ih =>
    obtain ⟨l, r, way⟩ := hf.way e (hes e (by simp))
    have hroot : (f.root e).2.elements = f.elements := way.root_eq.2.elements
    have hes' : ∀ x ∈ es, x ∈ (f.root e).2.elements := by
      intro x hx
      rw [hroot]
      exact hes x (by simp [hx])
    rw [gather_cons, ih hes' (hf.root e), hroot]

/-- Every element is filed at the end of the set of its root. -/
theorem getD_find?_gather (es : List α) (sets : OrderedMap α (List α)) (hf : f.Sound) (r : α) :
    ((gather f sets es).1.find? r).getD [] =
      (sets.find? r).getD [] ++ es.filter fun e => f.rootOf e = r := by
  induction es generalizing f sets with
  | nil => simp [gather]
  | cons e es ih =>
    have hroot := looked_root hf e
    rw [gather_cons, ih _ hroot.sound, hroot.rootOf, OrderedMap.find?_insert]
    by_cases hr : r = f.rootOf e
    · subst hr
      simp
    · have hr' : f.rootOf e ≠ r := fun h => hr h.symm
      simp [hr, hr']

/-- No set is listed before it has an element. -/
theorem gather_ne_nil (f : Forest α) (es : List α) {sets : OrderedMap α (List α)}
    (hsets : ∀ r, sets.find? r ≠ some []) (r : α) : (gather f sets es).1.find? r ≠ some [] := by
  induction es generalizing f sets with
  | nil => exact hsets r
  | cons e es ih =>
    rw [gather_cons]
    refine ih _ fun s => ?_
    rw [OrderedMap.find?_insert]
    split
    · simp
    · exact hsets s

theorem find?_sets (hf : f.Sound) (r : α) (members : List α) :
    f.sets.1.find? r = some members ↔
      members = (f.elements.filter fun e => f.rootOf e = r) ∧ members ≠ [] := by
  have hfile := getD_find?_gather f.elements .empty hf r
  have hempty : ∀ r, (OrderedMap.empty : OrderedMap α (List α)).find? r = none := fun _ => rfl
  have hne : f.sets.1.find? r ≠ some [] :=
    gather_ne_nil f f.elements (fun s => by rw [hempty]; simp) r
  change (f.sets.1.find? r).getD [] = _ at hfile
  rw [hempty, Option.getD_none, List.nil_append] at hfile
  rw [← hfile]
  cases hfind : f.sets.1.find? r with
  | none => simp
  | some found =>
    rw [hfind] at hne
    simp only [Option.some.injEq, Option.getD_some]
    constructor
    · rintro rfl
      exact ⟨rfl, fun h => hne (by rw [h])⟩
    · exact fun h => h.1.symm

/-! ### The partition -/

theorem climb_mono {steps steps' : Nat} (hle : steps ≤ steps') {e : α} {x : α × Forest α}
    (h : climb steps f e = some x) : climb steps' f e = some x := by
  induction steps generalizing steps' e x with
  | zero => cases h
  | succ steps ih =>
    obtain ⟨steps', rfl⟩ : ∃ k, steps' = k + 1 := ⟨steps' - 1, by omega⟩
    rw [climb] at h ⊢
    split at h
    · exact h
    · exact h
    · obtain ⟨y, hy, h⟩ := Option.map_eq_some_iff.1 h
      rw [ih (by omega) hy, Option.map_some, h]

/-- The root of an element records how many elements are connected with it. -/
theorem Represents.root_size {ps : List (α × α)} (h : Represents f ps) {e : α}
    (he : e ∈ f.elements) :
    f.cell? (f.rootOf e) = some (.root {x | Connected ps x e}.ncard) := by
  obtain ⟨l, way⟩ := h.sound.way_rootOf he
  obtain ⟨n, hn⟩ := way.cell?_root
  have hclass : {x | Connected ps x e} =
      ↑(f.elements.filter fun x => f.rootOf x = f.rootOf e).toFinset := by
    ext x
    rw [Set.mem_ofPred_eq, ← h.same_iff]
    simp only [List.coe_toFinset, List.mem_filter, decide_eq_true_eq, Set.mem_ofPred_eq]
    refine ⟨fun hx => ⟨?_, hx⟩, And.right⟩
    -- an element that is not there is its own root, but the root of `e` is there
    by_contra hnew
    rw [rootOf_new hnew] at hx
    exact hnew (hx ▸ way.root_mem)
  rw [hn, h.sound.size _ _ hn, hclass, Set.ncard_coe_finset,
    List.toFinset_card_of_nodup (f.nodup_elements.filter _), treeSize,
    List.countP_eq_length_filter]

/-- The forest keeps the partition into the classes of connected elements. -/
structure Partitions (f : Forest α) (ps : List (α × α)) : Prop where
  /-- Every look-up comes to its end, whatever number of steps beyond that of the elements it may
  take. -/
  root_ends : ∀ e steps, f.cells.size < steps → climb steps f e = some (f.root e)
  /-- Two look-ups in a row give the same root exactly for connected elements. -/
  same_root : ∀ a b, (f.root a).1 = ((f.root a).2.root b).1 ↔ Connected ps a b
  /-- The root of an element records the size of the class. -/
  root_size : ∀ e ∈ f.elements,
    f.cell? (f.root e).1 = some (.root {x | Connected ps x e}.ncard)
  /-- Listing the sets puts an element into the set under its root and into no other. -/
  listed_once : ∀ e ∈ f.elements, ∀ r,
    (∃ members, f.sets.1.find? r = some members ∧ e ∈ members) ↔ r = (f.root e).1
  /-- There are no other sets, and nothing else in the sets. -/
  listed_only : ∀ r members, f.sets.1.find? r = some members →
    members ≠ [] ∧ members.Nodup ∧ members ⊆ f.elements
  /-- At every point of the listing, the elements are those from before. -/
  listing_keeps : ∀ seen, seen <+: f.elements → (gather f .empty seen).2.elements = f.elements
  /-- A union is never refused. -/
  union_ok : ∀ a b, (f.union a b).1 = .ok ()
  /-- A join of an element that is not there is refused, and nothing changes. -/
  join_refused : ∀ a b, ¬(a ∈ f.elements ∧ b ∈ f.elements) →
    f.join a b = (.error (.unknown (if a ∈ f.elements then b else a)), f)

/-- After every run, the forest keeps the partition that the unions of the run make. The look-ups
inside an operation take place in states that look-ups reach, so they come to their ends too. -/
theorem after_partitions (ops : List (Operation α)) : Partitions (after ops) (pairs ops) := by
  have h := represents_after ops
  have hf := h.sound
  generalize after ops = f at h hf
  refine ⟨fun e steps hs => ?_, fun a b => ?_, fun e he => h.root_size he, fun e he r => ?_,
    fun r members hfind => ?_, fun seen hseen => ?_, fun a b => (union_spec hf a b).1,
    fun a b => join_of_notMem⟩
  · exact climb_mono hs (hf.root?_eq e)
  · rw [← h.same_iff, ← hf.rootOf_root a b]
    rfl
  · constructor
    · rintro ⟨members, hfind, hmem⟩
      rw [((find?_sets hf r members).1 hfind).1, List.mem_filter, decide_eq_true_eq] at hmem
      exact hmem.2.symm
    · rintro rfl
      have hmem : e ∈ f.elements.filter fun x => f.rootOf x = f.rootOf e := by simp [he]
      exact ⟨_, (find?_sets hf _ _).2 ⟨rfl, List.ne_nil_of_mem hmem⟩, hmem⟩
  · obtain ⟨rfl, hne⟩ := (find?_sets hf r members).1 hfind
    exact ⟨hne, f.nodup_elements.filter _, List.filter_subset_self _⟩
  · exact elements_gather (fun e he => hseen.subset he) hf .empty

example : (after [.union "a" "b", .root "c", .union "c" "a"]).sets.1.entries =
    [("b", ["a", "b", "c"])] := by decide

end Monotype.Forest
