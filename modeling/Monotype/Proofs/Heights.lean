import Monotype.Proofs.Invariants
import Monotype.Proofs.NormalForms
import Monotype.Proofs.Partition

/-! Ways to roots are short. A join hangs the smaller of two trees under the root of the larger, so
a way grows by one step only when the tree around it at least doubles, and the number of its steps
is at most the logarithm of the size recorded at its root. A unifier also hangs a large tree of
variables under a type that is no variable, however small the tree of that type is. But such a type
stays a root for good, so on every way this happens once, and it costs a factor of two. Look-ups
only make ways shorter. -/
namespace Monotype

universe u

namespace Forest

variable {α : Type u} [DecidableEq α] {f : Forest α}

/-! ### Shallow forests -/

/-- Every way is at most as long as the logarithm of the size at its root, up to a factor that
depends on the root. -/
structure Shallow (slack : α → Nat) (f : Forest α) : Prop where
  sound : f.Sound
  height : ∀ {e r l n}, f.Way e l r → f.cell? r = some (.root n) → 2 ^ l.length ≤ slack r * n

theorem shallow_empty (slack : α → Nat) : Shallow slack (.empty : Forest α) := by
  refine ⟨sound_empty, fun way _ => ?_⟩
  simpa using way.start_mem

namespace Shallow

variable {slack : α → Nat}

/-- A new element is a root at the end of no other way. -/
theorem new (h : Shallow slack f) (hslack : ∀ r, 0 < slack r) {e : α} (he : e ∉ f.elements) :
    Shallow slack (f.set e (.root 1)) := by
  refine ⟨sound_new he h.sound, fun {x s m n} way hn => ?_⟩
  have hmem := way.start_mem
  rw [elements_new he, List.mem_append, List.mem_singleton] at hmem
  rcases hmem with hx | rfl
  · obtain ⟨m', s', way'⟩ := h.sound.way x hx
    obtain ⟨rfl, rfl⟩ := way.unique (way_new he way')
    have hne : s ≠ e := fun heq => he (heq ▸ way'.root_mem)
    rw [cell?_set, if_neg hne] at hn
    exact h.height way' hn
  · have hroot : (f.set x (.root 1)).cell? x = some (.root 1) := by rw [cell?_set, if_pos rfl]
    obtain ⟨rfl, rfl⟩ := way.unique (.root hroot)
    rw [hroot] at hn
    cases hn
    simpa using Nat.succ_le_of_lt (hslack s)

/-- Pointing the elements of a way at its root makes no way longer and changes no root. -/
theorem compressed (h : Shallow slack f) {f' : Forest α} {e r : α} {l : List α}
    (hc : Compressed f f' l r) (hl : f.Way e l r) : Shallow slack f' := by
  refine ⟨hc.sound hl h.sound, fun {x s m n} way hn => ?_⟩
  have hx : x ∈ f.elements := hc.elements ▸ way.start_mem
  obtain ⟨m', s', way'⟩ := h.sound.way x hx
  obtain ⟨m'', way'', hle⟩ := hc.way hl way'
  obtain ⟨rfl, rfl⟩ := way.unique way''
  have hn' : f.cell? s = some (.root n) := by
    rw [hc.cell?] at hn
    split at hn
    · cases hn
    · exact hn
  calc 2 ^ m.length ≤ 2 ^ m'.length := Nat.pow_le_pow_right (by omega) hle
    _ ≤ slack s * n := h.height way' hn'

theorem root (h : Shallow slack f) (hslack : ∀ r, 0 < slack r) (e : α) :
    Shallow slack (f.root e).2 := by
  by_cases he : e ∈ f.elements
  · obtain ⟨l, r, way⟩ := h.sound.way e he
    exact h.compressed way.root_eq.2 way
  · rw [root_new he]
    exact h.new hslack he

section Joins

variable (h : Shallow slack f) {a b : α} {m n : Nat} (ha : f.cell? a = some (.root m))
  (hb : f.cell? b = some (.root n)) (hne : a ≠ b)
include h ha hb hne

/-- The ways to the root that is hung grow by one step, so their bound has to leave room for it. -/
theorem link (hroom : 2 * (slack a * m) ≤ slack b * (n + m)) : Shallow slack (f.link a b) := by
  refine ⟨sound_link ha hb hne h.sound, fun {x s l k} way hk => ?_⟩
  have hx : x ∈ f.elements := elements_link ha hb ▸ way.start_mem
  obtain ⟨l', s', way'⟩ := h.sound.way x hx
  have hlink := way_link ha hb hne way'
  rw [cell?_link ha hb] at hk
  split at hlink
  · rename_i hs
    subst hs
    obtain ⟨rfl, rfl⟩ := way.unique hlink
    rw [if_neg hne.symm, if_pos rfl] at hk
    cases hk
    have hheight := h.height way' ha
    rw [List.length_append, List.length_singleton, Nat.pow_succ]
    omega
  · rename_i hs
    obtain ⟨rfl, rfl⟩ := way.unique hlink
    rw [if_neg hs] at hk
    split at hk
    · rename_i hsb
      subst hsb
      cases hk
      calc 2 ^ l.length ≤ slack s * n := h.height way' hb
        _ ≤ slack s * (n + m) := Nat.mul_le_mul_left _ (Nat.le_add_right n m)
    · exact h.height way' hk

/-- The smaller tree is hung, so between roots of one factor there is room. -/
theorem merge (hslack : slack a = slack b) : Shallow slack (f.merge a b) := by
  have hroom : ∀ {k l : Nat}, k ≤ l → 2 * (slack b * k) ≤ slack b * (l + k) := by
    intro k l hkl
    rw [Nat.mul_left_comm]
    exact Nat.mul_le_mul_left _ (by omega)
  unfold Forest.merge
  simp only [rootSize?, ha, hb, Option.getD_some]
  split
  · rename_i hlt
    exact h.link hb ha hne.symm (hslack ▸ hroom (Nat.le_of_lt hlt))
  · rename_i hlt
    exact h.link ha hb hne (hslack ▸ hroom (Nat.le_of_not_lt hlt))

end Joins

end Shallow

/-- From `e`, `d` steps to a parent lead to the root `r`, which records the size `n`. -/
structure Climbs (f : Forest α) (e : α) (d : Nat) (r : α) (n : Nat) : Prop where
  way : ∃ l, f.Way e l r ∧ l.length = d
  size : f.cell? r = some (.root n)

theorem Shallow.climbs {slack : α → Nat} (h : Shallow slack f) {e : α} (he : e ∈ f.elements) :
    ∃ d r n, f.Climbs e d r n ∧ 2 ^ d ≤ slack r * n := by
  obtain ⟨l, r, way⟩ := h.sound.way e he
  obtain ⟨n, hn⟩ := way.cell?_root
  exact ⟨l.length, r, n, ⟨⟨l, way, rfl⟩, hn⟩, h.height way hn⟩

theorem lasting_shallow {slack : α → Nat} (hslack : ∀ r, 0 < slack r) :
    Lasting (Shallow slack) :=
  fun _ e h => h.root hslack e

/-! ### Runs of disjoint sets -/

theorem lasting_shallow_one : Lasting (Shallow (α := α) fun _ => 1) :=
  lasting_shallow fun _ => Nat.one_pos

/-- A union of two different roots joins just them. -/
theorem union_of_roots {a b : α} {m n : Nat} (ha : f.cell? a = some (.root m))
    (hb : f.cell? b = some (.root n)) (hne : a ≠ b) : f.union a b = f.join a b := by
  have hroot : ∀ {r : α} {k : Nat}, f.cell? r = some (.root k) → f.root r = (r, f) := by
    intro r k hr
    simp only [root, climb, hr, Option.getD_some]
  simp only [union, hroot ha, hroot hb, if_neg hne]

theorem Shallow.union (h : Shallow (fun _ => 1) f) (a b : α) :
    Shallow (fun _ => 1) (f.union a b).2 := by
  obtain ⟨hlooked, ha, hb⟩ := looked_two h.sound a b
  have hshallow := lasting_shallow_one _ b (lasting_shallow_one f a h)
  rw [union_eq h.sound]
  split
  · exact hshallow
  · rename_i hne
    obtain ⟨m, hm⟩ := hlooked.cell?_rootOf ha
    obtain ⟨n, hn⟩ := hlooked.cell?_rootOf hb
    rw [join_of_mem (mem_elements hm) (mem_elements hn)]
    exact hshallow.merge hm hn hne rfl

theorem Shallow.run (h : Shallow (fun _ => 1) f) (o : Operation α) :
    Shallow (fun _ => 1) (o.run f) := by
  cases o with
  | add e => exact lasting_shallow_one.add h e
  | root e => exact lasting_shallow_one f e h
  | contains e => exact h
  | sameSet es => exact lasting_shallow_one.sameSet h es
  | sets => exact lasting_shallow_one.sets h
  | union a b => exact h.union a b

theorem Shallow.foldl (h : Shallow (fun _ => 1) f) (ops : List (Operation α)) :
    Shallow (fun _ => 1) (ops.foldl Operation.run f) := by
  induction ops generalizing f with
  | nil => exact h
  | cons o ops ih => exact ih (h.run o)

end Forest

namespace Unifier

/-! ### Heights in a unifier -/

/-- A root that is not a variable may have a large tree hung under it, and is never hung itself. -/
def slack (t : Ty) : Nat := if t.isVar then 1 else 2

theorem slack_pos (t : Ty) : 0 < slack t := by
  unfold slack
  split <;> omega

theorem slack_le (t : Ty) : slack t ≤ 2 := by
  unfold slack
  split <;> omega

theorem slack_of_isVar {t : Ty} (h : t.isVar = true) : slack t = 1 := by rw [slack, if_pos h]

theorem slack_of_concrete {t : Ty} (h : t.isVar = false) : slack t = 2 := by simp [slack, h]

theorem stable_shallow : Stable (Forest.Shallow slack) := by
  refine ⟨Forest.lasting_shallow slack_pos, fun {u r s m n} hu hr hs hne => ?_⟩
  unfold joinRoots
  cases hvr : r.isVar <;> cases hvs : s.isVar
  · exact hu.merge hr hs hne (by rw [slack_of_concrete hvr, slack_of_concrete hvs])
  · exact hu.link hs hr hne.symm (by rw [slack_of_isVar hvs, slack_of_concrete hvr]; omega)
  · exact hu.link hr hs hne (by rw [slack_of_isVar hvr, slack_of_concrete hvs]; omega)
  · exact hu.merge hr hs hne (by rw [slack_of_isVar hvr, slack_of_isVar hvs])

end Unifier

/-- In every state of a run of disjoint sets, an element is at most as many steps below its root as
the logarithm of the size recorded there; and a join of two different roots is the union of the
two, so joins lead to no other states. In every state of a run of a unifier the same holds under a
root that is a variable, and up to one step more under any other root. -/
theorem after_heights {α : Type u} [DecidableEq α] :
    (∀ (ops : List (Forest.Operation α)) (e : α), e ∈ (Forest.after ops).elements →
      ∃ d r n, (Forest.after ops).Climbs e d r n ∧ 2 ^ d ≤ n) ∧
    (∀ (ops : List (Forest.Operation α)) (a b : α) (m n : Nat),
      (Forest.after ops).cell? a = some (.root m) → (Forest.after ops).cell? b = some (.root n) →
      a ≠ b → ((Forest.after ops).join a b).2 = Forest.after (ops ++ [.union a b])) ∧
    ∀ (ops : List Unifier.Operation) (e : Ty), e ∈ (Unifier.after ops).elements →
      ∃ d r n, (Unifier.after ops).Climbs e d r n ∧ 2 ^ d ≤ 2 * n ∧
        (r.isVar = true → 2 ^ d ≤ n) := by
  refine ⟨fun ops e he => ?_, fun ops a b m n ha hb hne => ?_, fun ops e he => ?_⟩
  · have h := (Forest.shallow_empty fun _ : α => 1).foldl ops
    obtain ⟨d, r, n, hclimbs, hle⟩ := h.climbs he
    exact ⟨d, r, n, hclimbs, by rwa [Nat.one_mul] at hle⟩
  · rw [← Forest.union_of_roots ha hb hne, Forest.after, Forest.after, List.foldl_append]
    rfl
  · have h := Unifier.stable_shallow.after (Forest.shallow_empty _) ops
    obtain ⟨d, r, n, hclimbs, hle⟩ := h.climbs he
    refine ⟨d, r, n, hclimbs, ?_, fun hv => ?_⟩
    · exact hle.trans (Nat.mul_le_mul_right n (Unifier.slack_le r))
    · rwa [Unifier.slack_of_isVar hv, Nat.one_mul] at hle

/-- Two trees of two elements each, made one. -/
def doubling : List (Forest.Operation String) := [.union "a" "b", .union "c" "d", .union "b" "d"]

/-- Four variables in one tree, hung under a type that is no variable. -/
def hanging : List Unifier.Operation := Unifier.chaining ++ [.unify (.var 4) .int]

/-- The first bound is reached: two steps in a tree of four. Under a type that is no variable it may
fail, and the factor is needed: three steps in a tree of five. -/
theorem after_heights_reached :
    ("a" ∈ (Forest.after doubling).elements ∧ (Forest.after doubling).Climbs "a" 2 "d" 4 ∧
      ∃ d r n, (Forest.after doubling).Climbs "a" d r n ∧ 2 ^ d ≤ n) ∧
    ((Forest.after (doubling ++ [.add "e"])).cell? "d" = some (.root 4) ∧
      (Forest.after (doubling ++ [.add "e"])).cell? "e" = some (.root 1) ∧ "d" ≠ "e" ∧
      ((Forest.after (doubling ++ [.add "e"])).join "d" "e").2 =
        Forest.after (doubling ++ [.add "e"] ++ [.union "d" "e"])) ∧
    (.var 1 ∈ (Unifier.after hanging).elements ∧
      (Unifier.after hanging).Climbs (.var 1) 3 .int 5 ∧
      ∃ d r n, (Unifier.after hanging).Climbs (.var 1) d r n ∧ 2 ^ d ≤ 2 * n ∧
        (r.isVar = true → 2 ^ d ≤ n)) := by
  refine ⟨⟨by decide, ⟨⟨["a", "b"], ?_, rfl⟩, by decide⟩,
      after_heights.1 doubling "a" (by decide)⟩,
    ⟨by decide, by decide, by decide, ?_⟩,
    by decide, ⟨⟨[.var 1, .var 2, .var 4], ?_, rfl⟩, by decide⟩,
      (after_heights (α := String)).2.2 hanging (.var 1) (by decide)⟩
  · exact .child (by decide) (.child (by decide) (.root (n := 4) (by decide)))
  · exact after_heights.2.1 (doubling ++ [.add "e"]) "d" "e" 4 1 (by decide) (by decide) (by decide)
  · exact .child (by decide) (.child (by decide) (.child (by decide) (.root (n := 5) (by decide))))

end Monotype
