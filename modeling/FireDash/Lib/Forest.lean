import Mathlib.Data.List.Basic

/-! Forests given by parent links: depth of a node, nodes below a node, what moving or
removing a subtree does to the depths, and the breadth-first levels below a frontier. -/
namespace FireDash

/-- `none` where there is no node, `some none` at a root, `some (some j)` below `j`. -/
abbrev Links (ι : Type) := ι → Option (Option ι)

namespace Links

variable {ι : Type} {P Q : Links ι} {i j k : ι} {m n d : ℕ}

/-- The number of nodes from a node up to its root, both counted. -/
inductive Depth (P : Links ι) : ι → ℕ → Prop
  | root {i : ι} (h : P i = some none) : Depth P i 1
  | child {i j : ι} {n : ℕ} (h : P i = some (some j)) (hj : Depth P j n) : Depth P i (n + 1)

/-- The node is the given number of steps below `i`. -/
inductive Below (P : Links ι) (i : ι) : ι → ℕ → Prop
  | refl : Below P i i 0
  | step {j k : ι} {d : ℕ} (h : P k = some (some j)) (hj : Below P i j d) : Below P i k (d + 1)

theorem Depth.pos (h : Depth P i n) : 0 < n := by
  cases h <;> omega

theorem Depth.unique (h : Depth P i n) (h' : Depth P i m) : n = m := by
  induction h generalizing m with
  | root h =>
    cases h' with
    | root => rfl
    | child hp _ => rw [h] at hp; cases hp
  | child h hj ih =>
    cases h' with
    | root hp => rw [h] at hp; cases hp
    | child hp hj' =>
      rw [h] at hp
      cases hp
      rw [ih hj']

/-- The nodes a node is below have the smaller depths. -/
theorem Depth.above (hk : Depth P k n) (h : Below P i k d) : ∃ m, Depth P i m ∧ n = m + d := by
  induction h generalizing n with
  | refl => exact ⟨n, hk, by omega⟩
  | step h hj ih =>
    cases hk with
    | root hp => rw [h] at hp; cases hp
    | child hp hk =>
      rw [h] at hp
      cases hp
      obtain ⟨m, hm, rfl⟩ := ih hk
      exact ⟨m, hm, by omega⟩

/-- No node is below itself. -/
theorem Depth.acyclic (hi : Depth P i n) (h : Below P i i d) : d = 0 := by
  obtain ⟨m, hm, he⟩ := hi.above h
  have hn := hi.unique hm
  omega

theorem Below.of_child (h : Below P j k d) (hp : P j = some (some i)) : Below P i k (d + 1) := by
  induction h with
  | refl => exact .step hp .refl
  | step h _ ih => exact .step h ih

/-- The way down starts at a child. -/
theorem Below.child (h : Below P i k (d + 1)) : ∃ j, P j = some (some i) ∧ Below P j k d := by
  generalize hd : d + 1 = m at h
  induction h generalizing d with
  | refl => omega
  | @step j k m hp hj ih =>
    obtain rfl : d = m := by omega
    cases d with
    | zero =>
      cases hj
      exact ⟨k, hp, .refl⟩
    | succ d =>
      obtain ⟨c, hc, hcj⟩ := ih rfl
      exact ⟨c, hc, .step hp hcj⟩

/-- Links that agree on a set closed under parents give its nodes the same depths. -/
theorem Depth.congr {K : ι → Prop} (hQ : ∀ k, K k → Q k = P k)
    (hK : ∀ k j, K k → P k = some (some j) → K j) (hk : K k) (h : Depth P k n) : Depth Q k n := by
  induction h with
  | root h => exact .root ((hQ _ hk).trans h)
  | child h _ ih => exact .child ((hQ _ hk).trans h) (ih (hK _ _ hk h))

/-- A new leaf leaves every other node at its depth. -/
theorem Depth.of_leaf (hi : P i = none) (hQ : ∀ k, k ≠ i → Q k = P k) (h : Depth P k n) : Depth Q k n := by
  induction h with
  | @root k h =>
    have hk : k ≠ i := fun he => by rw [he, hi] at h; cases h
    exact .root ((hQ k hk).trans h)
  | @child k j n h _ ih =>
    have hk : k ≠ i := fun he => by rw [he, hi] at h; cases h
    exact .child ((hQ k hk).trans h) ih

/-- Where a node is after `i` has been given another parent: it has moved along, or it was
not below `i`. -/
theorem Depth.of_move (hQ : ∀ k, k ≠ i → Q k = P k) (hi : Depth Q i m) (h : Depth P k n) :
    (∃ d, Below P i k d ∧ Depth Q k (m + d)) ∨ Depth Q k n := by
  induction h with
  | @root k h =>
    by_cases hk : k = i
    · subst hk
      exact .inl ⟨0, .refl, hi⟩
    · exact .inr (.root ((hQ k hk).trans h))
  | @child k j n h _ ih =>
    by_cases hk : k = i
    · subst hk
      exact .inl ⟨0, .refl, hi⟩
    · rcases ih with ⟨d, hb, hd⟩ | hd
      · exact .inl ⟨d + 1, .step h hb, .child ((hQ k hk).trans h) hd⟩
      · exact .inr (.child ((hQ k hk).trans h) hd)

/-- A node that is not below `i` keeps its depth when `i` is moved. -/
theorem Depth.of_not_below (hQ : ∀ k, k ≠ i → Q k = P k) (hk : ∀ d, ¬Below P i k d) (h : Depth P k n) :
    Depth Q k n := by
  refine h.congr (K := fun k => ∀ d, ¬Below P i k d) (fun k hk => ?_) (fun k j hk hp d hb => ?_) hk
  · apply hQ
    rintro rfl
    exact hk 0 .refl
  · exact hk (d + 1) (.step hp hb)

/-! ### Breadth-first levels -/

/-- The levels below a frontier, up to the first empty one. `none` when the rounds run out. -/
def levels (children : List ι → List ι) : ℕ → List ι → Option (List (List ι))
  | _, [] => some []
  | 0, _ :: _ => none
  | rounds + 1, i :: rest => (levels children rounds (children (i :: rest))).map fun ls => (i :: rest) :: ls

section levels

variable {children : List ι → List ι} {rounds : ℕ} {frontier : List ι} {ls : List (List ι)}

theorem levels_zero (h : levels children rounds frontier = some ls) (hi : i ∈ frontier) :
    ls[0]? = some frontier := by
  cases frontier with
  | nil => cases hi
  | cons a rest =>
    cases rounds with
    | zero => cases h
    | succ rounds =>
      obtain ⟨ls', -, rfl⟩ := Option.map_eq_some_iff.mp h
      rfl

theorem levels_succ {level : List ι} (h : levels children rounds frontier = some ls) (hl : ls[d]? = some level)
    (hk : k ∈ children level) : ls[d + 1]? = some (children level) := by
  induction rounds generalizing frontier ls d with
  | zero =>
    cases frontier with
    | nil =>
      obtain rfl := Option.some.inj h
      simp at hl
    | cons a rest => cases h
  | succ rounds ih =>
    cases frontier with
    | nil =>
      obtain rfl := Option.some.inj h
      simp at hl
    | cons a rest =>
      obtain ⟨ls', h', rfl⟩ := Option.map_eq_some_iff.mp h
      cases d with
      | zero =>
        obtain rfl := Option.some.inj hl
        rw [List.getElem?_cons_succ]
        exact levels_zero h' hk
      | succ d =>
        rw [List.getElem?_cons_succ] at hl ⊢
        exact ih h' hl

/-- Every node below the frontier that the search follows is in the level of its distance. -/
theorem mem_levels_of_below {q : ι → Prop} (hc : ∀ level j k, j ∈ level → P k = some (some j) → q k → k ∈ children level)
    (hq : ∀ j k, P k = some (some j) → q j) (h : levels children rounds frontier = some ls) (hi : i ∈ frontier)
    (hk : q k) (hb : Below P i k d) : ∃ level, ls[d]? = some level ∧ k ∈ level := by
  induction hb with
  | refl => exact ⟨frontier, levels_zero h hi, hi⟩
  | step hp _ ih =>
    obtain ⟨level, hl, hj⟩ := ih (hq _ _ hp)
    have hmem := hc level _ _ hj hp hk
    exact ⟨children level, levels_succ h hl hmem, hmem⟩

/-- The search finds nothing else. -/
theorem below_of_mem_levels (hc : ∀ level k, k ∈ children level → ∃ j ∈ level, P k = some (some j))
    (h : levels children rounds frontier = some ls) {level : List ι} (hl : ls[d]? = some level) (hk : k ∈ level) :
    ∃ i ∈ frontier, Below P i k d := by
  induction rounds generalizing frontier ls d with
  | zero =>
    cases frontier with
    | nil =>
      obtain rfl := Option.some.inj h
      simp at hl
    | cons a rest => cases h
  | succ rounds ih =>
    cases frontier with
    | nil =>
      obtain rfl := Option.some.inj h
      simp at hl
    | cons a rest =>
      obtain ⟨ls', h', rfl⟩ := Option.map_eq_some_iff.mp h
      cases d with
      | zero =>
        obtain rfl := Option.some.inj hl
        exact ⟨k, hk, .refl⟩
      | succ d =>
        rw [List.getElem?_cons_succ] at hl
        obtain ⟨j, hj, hb⟩ := ih h' hl
        obtain ⟨i, hi, hp⟩ := hc _ j hj
        exact ⟨i, hi, hb.of_child hp⟩

/-- Enough rounds reach the empty level of a forest of bounded depth. -/
theorem levels_isSome {N : ℕ} (hc : ∀ level k, k ∈ children level → ∃ j ∈ level, P k = some (some j))
    (hN : ∀ k n, Depth P k n → n ≤ N) (hf : ∀ k ∈ frontier, ∃ n, Depth P k n ∧ m ≤ n) (hr : N < m + rounds) :
    ∃ ls, levels children rounds frontier = some ls := by
  induction rounds generalizing frontier m with
  | zero =>
    cases frontier with
    | nil => exact ⟨[], rfl⟩
    | cons a rest =>
      obtain ⟨n, hn, hm⟩ := hf a List.mem_cons_self
      have hle := hN a n hn
      omega
  | succ rounds ih =>
    cases frontier with
    | nil => exact ⟨[], rfl⟩
    | cons a rest =>
      have hnext : ∀ k ∈ children (a :: rest), ∃ n, Depth P k n ∧ m + 1 ≤ n := by
        intro k hk
        obtain ⟨j, hj, hp⟩ := hc _ k hk
        obtain ⟨n, hn, hm⟩ := hf j hj
        exact ⟨n + 1, .child hp hn, by omega⟩
      obtain ⟨ls, hls⟩ := ih hnext (by omega)
      exact ⟨(a :: rest) :: ls, by simp [levels, hls]⟩

end levels

end Links
end FireDash
