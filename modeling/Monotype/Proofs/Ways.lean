import Monotype.Forest
import Mathlib.Data.List.Nodup
import Mathlib.Data.List.Perm.Subperm
import Mathlib.Tactic.Common

/-! Ways up in a forest. The way of an element lists the elements passed below its root; it is
unique, has no element twice and is therefore shorter than the forest has elements, so a look-up
always comes to its end. A forest is sound when every element has a way and every root records how
many elements have it as their root. Looking up and joining two roots keep a forest sound; a look-up
changes no root, and a join changes just the roots of the tree that is hung under the other. -/
namespace Monotype

universe u

namespace Forest

variable {α : Type u} [DecidableEq α] {f f' : Forest α}

theorem mem_elements_iff {e : α} : e ∈ f.elements ↔ ∃ c, f.cell? e = some c :=
  OrderedMap.mem_keys_iff f.cells e

theorem mem_elements {e : α} {c : Cell α} (h : f.cell? e = some c) : e ∈ f.elements :=
  mem_elements_iff.2 ⟨c, h⟩

theorem cell?_eq_none {e : α} (h : e ∉ f.elements) : f.cell? e = none := by
  rw [mem_elements_iff] at h
  cases hc : f.cell? e with
  | none => rfl
  | some c => exact absurd ⟨c, hc⟩ h

omit [DecidableEq α] in
theorem length_elements (f : Forest α) : f.elements.length = f.cells.size := by
  simp [elements, OrderedMap.keys, OrderedMap.size]

theorem elements_set_of_mem {e : α} (h : e ∈ f.elements) (c : Cell α) :
    (f.set e c).elements = f.elements := by
  rw [elements_set, if_pos h]

/-! ### Ways -/

/-- `f.Way e l r`: from `e`, parents lead over the elements of `l` to the root `r`. -/
inductive Way (f : Forest α) : α → List α → α → Prop
  | root {r : α} {n : Nat} (h : f.cell? r = some (.root n)) : Way f r [] r
  | child {e p r : α} {l : List α} (h : f.cell? e = some (.child p)) (way : Way f p l r) :
    Way f e (e :: l) r

namespace Way

variable {e x r r' : α} {l l' : List α}

theorem unique (h : f.Way e l r) (h' : f.Way e l' r') : l = l' ∧ r = r' := by
  induction h generalizing l' with
  | root hc =>
    cases h' with
    | root _ => exact ⟨rfl, rfl⟩
    | child hc' _ => rw [hc] at hc'; cases hc'
  | child hc _ ih =>
    cases h' with
    | root hc' => rw [hc] at hc'; cases hc'
    | child hc' way' =>
      rw [hc] at hc'
      cases hc'
      obtain ⟨rfl, rfl⟩ := ih way'
      exact ⟨rfl, rfl⟩

theorem cell?_root (h : f.Way e l r) : ∃ n, f.cell? r = some (.root n) := by
  induction h with
  | root hc => exact ⟨_, hc⟩
  | child _ _ ih => exact ih

theorem cell?_of_mem (h : f.Way e l r) (hx : x ∈ l) : ∃ p, f.cell? x = some (.child p) := by
  induction h with
  | root _ => simp at hx
  | child hc _ ih =>
    rcases List.mem_cons.1 hx with rfl | hx
    · exact ⟨_, hc⟩
    · exact ih hx

theorem root_notMem (h : f.Way e l r) : r ∉ l := by
  intro hr
  obtain ⟨n, hn⟩ := h.cell?_root
  obtain ⟨p, hp⟩ := h.cell?_of_mem hr
  rw [hn] at hp
  cases hp

/-- Every element on a way has the rest of it as its own way. -/
theorem of_mem (h : f.Way e l r) (hx : x ∈ l) :
    ∃ l', f.Way x l' r ∧ l'.length ≤ l.length := by
  induction h with
  | root _ => simp at hx
  | child hc way ih =>
    rcases List.mem_cons.1 hx with rfl | hx
    · exact ⟨_, .child hc way, Nat.le_refl _⟩
    · obtain ⟨l', way', hle⟩ := ih hx
      exact ⟨l', way', by rw [List.length_cons]; omega⟩

theorem nodup (h : f.Way e l r) : l.Nodup := by
  induction h with
  | root _ => exact List.nodup_nil
  | @child e p r l hc way ih =>
    refine List.nodup_cons.2 ⟨fun he => ?_, ih⟩
    -- a second visit of `e` would have a shorter way than the first
    obtain ⟨l', way', hle⟩ := way.of_mem he
    obtain ⟨rfl, -⟩ := (Way.child hc way).unique way'
    rw [List.length_cons] at hle
    omega

theorem root_mem (h : f.Way e l r) : r ∈ f.elements := by
  obtain ⟨n, hn⟩ := h.cell?_root
  exact mem_elements hn

theorem start_mem (h : f.Way e l r) : e ∈ f.elements := by
  cases h with
  | root hc => exact mem_elements hc
  | child hc _ => exact mem_elements hc

theorem length_lt (h : f.Way e l r) : l.length < f.cells.size := by
  have hnodup : (r :: l).Nodup := List.nodup_cons.2 ⟨h.root_notMem, h.nodup⟩
  have hsub : r :: l ⊆ f.elements := by
    intro x hx
    rcases List.mem_cons.1 hx with rfl | hx
    · exact h.root_mem
    · obtain ⟨p, hp⟩ := h.cell?_of_mem hx
      exact mem_elements hp
  have hle := (List.subperm_of_subset hnodup hsub).length_le
  rw [List.length_cons, length_elements] at hle
  omega

end Way

/-! ### Looking up -/

/-- The root that a look-up gives. -/
def rootOf (f : Forest α) (e : α) : α := (f.root e).1

/-- The look-up that has no answer when it does not come to its end. -/
def root? (f : Forest α) (e : α) : Option (α × Forest α) := climb (f.cells.size + 1) f e

/-- `f'` is `f` with the elements of `l` pointed at `r`. -/
structure Compressed (f f' : Forest α) (l : List α) (r : α) : Prop where
  cell? : ∀ x, f'.cell? x = if x ∈ l then some (.child r) else f.cell? x
  elements : f'.elements = f.elements

theorem climb_new {e : α} (h : e ∉ f.elements) (steps : Nat) :
    climb (steps + 1) f e = some (e, f.set e (.root 1)) := by
  simp only [climb, cell?_eq_none h]

theorem Way.climb {e r : α} {l : List α} (h : f.Way e l r) {steps : Nat} (hs : l.length < steps) :
    ∃ f', climb steps f e = some (r, f') ∧ Compressed f f' l r := by
  induction h generalizing steps with
  | root hc =>
    obtain ⟨steps, rfl⟩ : ∃ k, steps = k + 1 := ⟨steps - 1, by omega⟩
    refine ⟨f, ?_, fun x => by simp, rfl⟩
    simp only [Forest.climb, hc]
  | @child e p r l hc way ih =>
    obtain ⟨steps, rfl⟩ : ∃ k, steps = k + 1 := ⟨steps - 1, by omega⟩
    rw [List.length_cons] at hs
    obtain ⟨f₁, hclimb, hcells, helements⟩ := ih (show l.length < steps by omega)
    refine ⟨if r = p then f₁ else f₁.set e (.child r), ?_, ?_, ?_⟩
    · simp only [Forest.climb, hc, hclimb, Option.map_some]
    · intro x
      by_cases hp : r = p
      · -- the parent is the root, so `e` points at the root already
        subst hp
        obtain ⟨n, hn⟩ := way.cell?_root
        obtain ⟨rfl, -⟩ := way.unique (.root hn)
        by_cases hx : x = e
        · subst hx; simp [hcells, hc]
        · simp [hcells, hx]
      · rw [if_neg hp, cell?_set, hcells]
        by_cases hx : x = e <;> simp [hx]
    · have he : e ∈ f₁.elements := by rw [helements]; exact mem_elements hc
      split
      · exact helements
      · rw [elements_set_of_mem he, helements]

theorem Way.root_eq {e r : α} {l : List α} (h : f.Way e l r) :
    (f.root e).1 = r ∧ Compressed f (f.root e).2 l r := by
  obtain ⟨f', hf', hc⟩ := h.climb (Nat.lt_succ_of_lt h.length_lt)
  simp only [Forest.root, hf', Option.getD_some]
  exact ⟨trivial, hc⟩

theorem Way.rootOf {e r : α} {l : List α} (h : f.Way e l r) : f.rootOf e = r := h.root_eq.1

theorem root_new {e : α} (h : e ∉ f.elements) : f.root e = (e, f.set e (.root 1)) := by
  rw [Forest.root, climb_new h, Option.getD_some]

theorem rootOf_new {e : α} (h : e ∉ f.elements) : f.rootOf e = e := by
  rw [rootOf, root_new h]

/-! ### Sound forests -/

/-- How many elements have `r` as their root. -/
def treeSize (f : Forest α) (r : α) : Nat := f.elements.countP fun e => f.rootOf e = r

/-- Every element has a way to a root, and every root records how many elements have it as root. -/
structure Sound (f : Forest α) : Prop where
  way : ∀ e ∈ f.elements, ∃ l r, f.Way e l r
  size : ∀ r n, f.cell? r = some (.root n) → n = f.treeSize r

omit [DecidableEq α] in
@[simp] theorem elements_empty : (empty : Forest α).elements = [] := rfl

theorem rootOf_empty (e : α) : (empty : Forest α).rootOf e = e := rootOf_new (by simp)

theorem sound_empty : (empty : Forest α).Sound := by
  refine ⟨fun e he => ?_, fun r n hr => ?_⟩
  · simp at he
  · simpa using mem_elements hr

namespace Sound

variable (hf : f.Sound)
include hf

theorem way_rootOf {e : α} (he : e ∈ f.elements) : ∃ l, f.Way e l (f.rootOf e) := by
  obtain ⟨l, r, way⟩ := hf.way e he
  exact ⟨l, way.rootOf ▸ way⟩

theorem root?_eq (e : α) : f.root? e = some (f.root e) := by
  by_cases he : e ∈ f.elements
  · obtain ⟨l, r, way⟩ := hf.way e he
    obtain ⟨f', hf', -⟩ := way.climb (Nat.lt_succ_of_lt way.length_lt)
    simp only [root?, Forest.root, hf', Option.getD_some]
  · rw [root?, climb_new he, root_new he]

theorem rootOf_mem {e : α} (he : e ∈ f.elements) : f.rootOf e ∈ f.elements := by
  obtain ⟨l, way⟩ := hf.way_rootOf he
  exact way.root_mem

theorem rootOf_eq_iff {e : α} (he : e ∈ f.elements) :
    f.rootOf e = e ↔ ∃ n, f.cell? e = some (.root n) := by
  constructor
  · intro h
    obtain ⟨l, way⟩ := hf.way_rootOf he
    rw [h] at way
    exact way.cell?_root
  · rintro ⟨n, hn⟩
    exact (Way.root hn).rootOf

end Sound

/-! ### A look-up keeps all roots -/

namespace Compressed

variable {l : List α} {e r : α}

/-- Ways only become shorter. -/
theorem way (h : Compressed f f' l r) (hl : f.Way e l r) {x s : α} {m : List α}
    (hx : f.Way x m s) : ∃ m', f'.Way x m' s ∧ m'.length ≤ m.length := by
  induction hx with
  | @root s n hc =>
    have hs : s ∉ l := fun hs => by
      obtain ⟨p, hp⟩ := hl.cell?_of_mem hs
      rw [hc] at hp
      cases hp
    exact ⟨[], .root (by rw [h.cell?, if_neg hs, hc]), Nat.le_refl _⟩
  | @child x p s m hc way ih =>
    by_cases hx : x ∈ l
    · obtain ⟨l', way', -⟩ := hl.of_mem hx
      obtain ⟨-, rfl⟩ := way'.unique (.child hc way)
      obtain ⟨n, hn⟩ := hl.cell?_root
      have hroot : f'.Way r [] r := .root (by rw [h.cell?, if_neg hl.root_notMem, hn])
      exact ⟨[x], .child (by rw [h.cell?, if_pos hx]) hroot, by simp⟩
    · obtain ⟨m', way', hle⟩ := ih
      refine ⟨x :: m', .child (by rw [h.cell?, if_neg hx, hc]) way', ?_⟩
      rw [List.length_cons, List.length_cons]
      omega

theorem rootOf (h : Compressed f f' l r) (hl : f.Way e l r) (hf : f.Sound) (x : α) :
    f'.rootOf x = f.rootOf x := by
  by_cases hx : x ∈ f.elements
  · obtain ⟨m, way⟩ := hf.way_rootOf hx
    obtain ⟨m', way', -⟩ := h.way hl way
    exact way'.rootOf
  · rw [rootOf_new hx, rootOf_new (by rwa [h.elements])]

theorem sound (h : Compressed f f' l r) (hl : f.Way e l r) (hf : f.Sound) : f'.Sound := by
  constructor
  · intro x hx
    rw [h.elements] at hx
    obtain ⟨m, s, way⟩ := hf.way x hx
    obtain ⟨m', way', -⟩ := h.way hl way
    exact ⟨m', s, way'⟩
  · intro s n hs
    rw [h.cell?] at hs
    split at hs
    · cases hs
    · simp only [hf.size s n hs, treeSize, h.elements, h.rootOf hl hf]

end Compressed

section New

variable {e : α} (he : e ∉ f.elements)
include he

theorem elements_new : (f.set e (.root 1)).elements = f.elements ++ [e] := by
  rw [elements_set, if_neg he]

theorem way_new {x s : α} {m : List α} (hx : f.Way x m s) : (f.set e (.root 1)).Way x m s := by
  have hcell : ∀ {y : α} {c : Cell α}, f.cell? y = some c →
      (f.set e (.root 1)).cell? y = some c := by
    intro y c hy
    have hne : y ≠ e := fun h => he (h ▸ mem_elements hy)
    rw [cell?_set, if_neg hne, hy]
  induction hx with
  | root hc => exact .root (hcell hc)
  | child hc _ ih => exact .child (hcell hc) ih

theorem rootOf_set_new (hf : f.Sound) (x : α) : (f.set e (.root 1)).rootOf x = f.rootOf x := by
  by_cases hx : x ∈ f.elements
  · obtain ⟨m, way⟩ := hf.way_rootOf hx
    exact (way_new he way).rootOf
  · rw [rootOf_new hx]
    by_cases hxe : x = e
    · subst hxe
      exact (Way.root (n := 1) (by rw [cell?_set, if_pos rfl])).rootOf
    · apply rootOf_new
      rw [elements_new he]
      simp [hx, hxe]

theorem sound_new (hf : f.Sound) : (f.set e (.root 1)).Sound := by
  constructor
  · intro x hx
    rw [elements_new he, List.mem_append, List.mem_singleton] at hx
    rcases hx with hx | rfl
    · obtain ⟨m, s, way⟩ := hf.way x hx
      exact ⟨m, s, way_new he way⟩
    · exact ⟨[], x, .root (n := 1) (by rw [cell?_set, if_pos rfl])⟩
  · intro r n hr
    have htree : (f.set e (.root 1)).treeSize r = f.treeSize r + if e = r then 1 else 0 := by
      simp only [treeSize, elements_new he, rootOf_set_new he hf, List.countP_append,
        List.countP_singleton, rootOf_new he, decide_eq_true_eq]
    rw [cell?_set] at hr
    rw [htree]
    split at hr
    · -- no element had the new root as its root
      rename_i hre
      subst hre
      cases hr
      have hzero : f.treeSize r = 0 := by
        refine List.countP_eq_zero.2 fun x hx => ?_
        have hne : f.rootOf x ≠ r := fun h => he (h ▸ hf.rootOf_mem hx)
        simpa using hne
      simp [hzero]
    · rename_i hre
      rw [hf.size r n hr, if_neg fun h => hre h.symm, Nat.add_zero]

end New

namespace Sound

variable (hf : f.Sound) (e : α)
include hf

theorem root : (f.root e).2.Sound := by
  by_cases he : e ∈ f.elements
  · obtain ⟨l, r, way⟩ := hf.way e he
    exact way.root_eq.2.sound way hf
  · rw [root_new he]
    exact sound_new he hf

/-- A look-up keeps the root of every element. -/
theorem rootOf_root (x : α) : (f.root e).2.rootOf x = f.rootOf x := by
  by_cases he : e ∈ f.elements
  · obtain ⟨l, r, way⟩ := hf.way e he
    exact way.root_eq.2.rootOf way hf x
  · rw [root_new he]
    exact rootOf_set_new he hf x

theorem mem_elements_root {x : α} : x ∈ (f.root e).2.elements ↔ x ∈ f.elements ∨ x = e := by
  by_cases he : e ∈ f.elements
  · obtain ⟨l, r, way⟩ := hf.way e he
    rw [way.root_eq.2.elements]
    exact ⟨.inl, fun h => h.elim id fun h => h ▸ he⟩
  · rw [root_new he, elements_new he]
    simp

end Sound

/-! ### Look-ups in a row -/

/-- `f'` is what look-ups leave of `f`. -/
structure Looked (f f' : Forest α) : Prop where
  sound : f'.Sound
  rootOf : f'.rootOf = f.rootOf

theorem Looked.refl (hf : f.Sound) : Looked f f := ⟨hf, rfl⟩

theorem Looked.trans {f'' : Forest α} (h : Looked f f') (h' : Looked f' f'') : Looked f f'' :=
  ⟨h'.sound, h'.rootOf.trans h.rootOf⟩

theorem looked_root (hf : f.Sound) (e : α) : Looked f (f.root e).2 :=
  ⟨hf.root e, funext fun x => hf.rootOf_root e x⟩

/-- A property that every look-up keeps. -/
def Lasting (P : Forest α → Prop) : Prop := ∀ f e, P f → P (f.root e).2

/-- Adding a new element is looking it up. -/
theorem add_eq (f : Forest α) (e : α) :
    f.add e = if e ∈ f.elements then f else (f.root e).2 := by
  have hcontains : f.contains e = true ↔ e ∈ f.elements := by
    rw [mem_elements_iff]
    exact Option.isSome_iff_exists
  simp only [add, hcontains]
  split
  · rfl
  · rename_i he
    rw [root_new he]

namespace Lasting

variable {P : Forest α → Prop} (h : Lasting P)
include h

theorem add (hf : P f) (e : α) : P (f.add e) := by
  rw [add_eq]
  split
  · exact hf
  · exact h f e hf

theorem allUnder (r : α) (es : List α) (hf : P f) : P (allUnder r f es).2 := by
  induction es generalizing f with
  | nil => exact hf
  | cons e es ih =>
    have hroot := h f e hf
    change P (if r = f.rootOf e then Forest.allUnder r (f.root e).2 es
      else (false, (f.root e).2)).2
    split
    · exact ih hroot
    · exact hroot

theorem sameSet (hf : P f) (es : List α) : P (f.sameSet es).2 := by
  match es with
  | [] | [_] => exact hf
  | e :: e' :: rest => exact h.allUnder (f.rootOf e) (e' :: rest) (h f e hf)

theorem gather (es : List α) (sets : OrderedMap α (List α)) (hf : P f) :
    P (gather f sets es).2 := by
  induction es generalizing f sets with
  | nil => exact hf
  | cons e es ih => exact ih _ (h f e hf)

theorem sets (hf : P f) : P f.sets.2 := h.gather f.elements .empty hf

end Lasting

theorem lasting_looked (f : Forest α) : Lasting (Looked f) := by
  intro f' e h
  exact h.trans (looked_root h.sound e)

theorem looked_add (hf : f.Sound) (e : α) : Looked f (f.add e) :=
  (lasting_looked f).add (.refl hf) e

theorem looked_sameSet (hf : f.Sound) (es : List α) : Looked f (f.sameSet es).2 :=
  (lasting_looked f).sameSet (.refl hf) es

theorem looked_sets (hf : f.Sound) : Looked f f.sets.2 := (lasting_looked f).sets (.refl hf)

/-! ### Joining two roots -/

section Link

variable {a b : α} {na nb : Nat}

theorem cell?_link (ha : f.cell? a = some (.root na)) (hb : f.cell? b = some (.root nb)) (x : α) :
    (f.link a b).cell? x =
      if x = a then some (.child b) else if x = b then some (.root (nb + na)) else f.cell? x := by
  simp only [link, rootSize?, ha, hb, Option.getD_some, cell?_set]

variable (ha : f.cell? a = some (.root na)) (hb : f.cell? b = some (.root nb)) (hne : a ≠ b)
include ha hb

theorem elements_link : (f.link a b).elements = f.elements := by
  have hb' : b ∈ f.elements := mem_elements hb
  simp only [link]
  rw [elements_set_of_mem, elements_set_of_mem hb']
  rw [elements_set_of_mem hb']
  exact mem_elements ha

include hne

/-- A way that ended in `a` goes one step further to `b`; all others stay. -/
theorem way_link {x s : α} {m : List α} (hx : f.Way x m s) :
    if s = a then (f.link a b).Way x (m ++ [a]) b else (f.link a b).Way x m s := by
  induction hx with
  | @root s n hc =>
    split
    · rename_i hs
      subst hs
      have hroot : (f.link s b).Way b [] b :=
        .root (n := nb + na) (by rw [cell?_link ha hb, if_neg hne.symm, if_pos rfl])
      exact .child (by rw [cell?_link ha hb, if_pos rfl]) hroot
    · rename_i hs
      by_cases hsb : s = b
      · subst hsb
        exact .root (n := nb + na) (by rw [cell?_link ha hb, if_neg hs, if_pos rfl])
      · exact .root (n := n) (by rw [cell?_link ha hb, if_neg hs, if_neg hsb, hc])
  | @child x p s m hc way ih =>
    have hxa : x ≠ a := fun h => by rw [h, ha] at hc; cases hc
    have hxb : x ≠ b := fun h => by rw [h, hb] at hc; cases hc
    have hc' : (f.link a b).cell? x = some (.child p) := by
      rw [cell?_link ha hb, if_neg hxa, if_neg hxb, hc]
    split
    · rename_i hs
      rw [if_pos hs] at ih
      exact .child hc' ih
    · rename_i hs
      rw [if_neg hs] at ih
      exact .child hc' ih

variable (hf : f.Sound)
include hf

theorem rootOf_link (x : α) :
    (f.link a b).rootOf x = if f.rootOf x = a then b else f.rootOf x := by
  by_cases hx : x ∈ f.elements
  · obtain ⟨m, way⟩ := hf.way_rootOf hx
    have hlink := way_link ha hb hne way
    split at hlink
    · rename_i h
      rw [if_pos h]
      exact hlink.rootOf
    · rename_i h
      rw [if_neg h]
      exact hlink.rootOf
  · have hxa : x ≠ a := fun h => hx (h ▸ mem_elements ha)
    rw [rootOf_new hx, if_neg hxa, rootOf_new (by rwa [elements_link ha hb])]

theorem treeSize_link (r : α) (hr : r ≠ a) :
    (f.link a b).treeSize r = f.treeSize r + if r = b then f.treeSize a else 0 := by
  simp only [treeSize, elements_link ha hb, rootOf_link ha hb hne hf]
  induction f.elements with
  | nil => simp
  | cons x rest ih =>
    simp only [List.countP_cons, ih]
    by_cases hxa : f.rootOf x = a
    · by_cases hrb : r = b
      · simp [hxa, hrb, hne]
        omega
      · simp [hxa, hrb, Ne.symm hr, Ne.symm hrb]
    · by_cases hrb : r = b
      · simp only [hxa, hrb, if_false, if_true, decide_false, Bool.false_eq_true, Nat.add_zero]
        omega
      · simp [hxa, hrb]

theorem sound_link : (f.link a b).Sound := by
  constructor
  · intro x hx
    rw [elements_link ha hb] at hx
    obtain ⟨m, way⟩ := hf.way_rootOf hx
    have hlink := way_link ha hb hne way
    split at hlink
    · exact ⟨_, _, hlink⟩
    · exact ⟨_, _, hlink⟩
  · intro r n hr
    rw [cell?_link ha hb] at hr
    split at hr
    · cases hr
    · rename_i hra
      rw [treeSize_link ha hb hne hf r hra]
      split at hr
      · rename_i hrb
        subst hrb
        cases hr
        rw [if_pos rfl, ← hf.size _ _ ha, ← hf.size _ _ hb]
      · rename_i hrb
        rw [if_neg hrb, ← hf.size _ _ hr, Nat.add_zero]

end Link

end Forest

end Monotype
