import Mathlib.Logic.Relation

/-! Labelled transition systems, their runs, and the induction rules for invariants
and for properties of the steps of a run. -/
namespace FireDash

/-- Inversion of a step that may not be possible. -/
theorem bind_eq_some {α β : Type} {x : Option α} {f : α → Option β} {b : β} :
    (x >>= f) = some b ↔ ∃ a, x = some a ∧ f a = some b := Option.bind_eq_some_iff

/-- Initial states and a step relation labelled by the action taken. -/
structure Machine (σ α : Type) where
  init : σ → Prop
  step : σ → α → σ → Prop

namespace Machine

variable {σ α : Type} (M : Machine σ α)

/-- A run, as the list of its steps: the state before, the action, the state after. -/
inductive Run : σ → List (σ × α × σ) → σ → Prop
  | start {s : σ} (h : M.init s) : Run s [] s
  | next {s t t' : σ} {trace : List (σ × α × σ)} {a : α} (h : Run s trace t) (hs : M.step t a t') :
      Run s (trace ++ [(t, a, t')]) t'

def Reachable (t : σ) : Prop := ∃ s trace, M.Run s trace t

/-- States reached by runs all of whose steps satisfy `C`. -/
def ReachableBy (C : σ → α → Prop) (t : σ) : Prop :=
  ∃ s trace, M.Run s trace t ∧ ∀ e ∈ trace, C e.1 e.2.1

variable {M}

theorem Reachable.init {s : σ} (h : M.init s) : M.Reachable s := ⟨s, [], .start h⟩

theorem Reachable.next {s t : σ} {a : α} (h : M.Reachable s) (hs : M.step s a t) :
    M.Reachable t := by
  obtain ⟨s₀, trace, hr⟩ := h
  exact ⟨s₀, _, hr.next hs⟩

theorem ReachableBy.reachable {C : σ → α → Prop} {t : σ} (h : M.ReachableBy C t) : M.Reachable t := by
  obtain ⟨s, trace, hr, -⟩ := h
  exact ⟨s, trace, hr⟩

theorem ReachableBy.init {C : σ → α → Prop} {s : σ} (h : M.init s) : M.ReachableBy C s :=
  ⟨s, [], .start h, by simp⟩

theorem ReachableBy.next {C : σ → α → Prop} {s t : σ} {a : α} (h : M.ReachableBy C s) (ha : C s a)
    (hs : M.step s a t) : M.ReachableBy C t := by
  obtain ⟨s₀, trace, hr, hC⟩ := h
  refine ⟨s₀, _, hr.next hs, fun e he => ?_⟩
  rcases List.mem_append.mp he with he | he
  · exact hC e he
  · obtain rfl := List.mem_singleton.mp he
    exact ha

/-- The invariant rule over the runs whose steps satisfy `C`. -/
theorem ReachableBy.invariant {C : σ → α → Prop} {I : σ → Prop} (hinit : ∀ s, M.init s → I s)
    (hstep : ∀ s a t, M.Reachable s → I s → C s a → M.step s a t → I t) {t : σ}
    (h : M.ReachableBy C t) : I t := by
  obtain ⟨s, trace, hr, hC⟩ := h
  induction hr with
  | start h => exact hinit _ h
  | @next t t' trace a h hs ih =>
    have hpre : ∀ e ∈ trace, C e.1 e.2.1 := fun e he => hC e (List.mem_append_left _ he)
    exact hstep t a t' ⟨s, trace, h⟩ (ih hpre) (hC (t, a, t') (by simp)) hs

theorem Reachable.invariant {I : σ → Prop} (hinit : ∀ s, M.init s → I s)
    (hstep : ∀ s a t, I s → M.step s a t → I t) {t : σ} (h : M.Reachable t) : I t := by
  obtain ⟨s, trace, hr⟩ := h
  have hall : M.ReachableBy (fun _ _ => True) t := ⟨s, trace, hr, fun _ _ => trivial⟩
  exact hall.invariant hinit (fun s a t _ hI _ hs => hstep s a t hI hs)

/-- Every step of a run leaves a reachable state by a step of the machine. -/
theorem Run.mem_step {s t : σ} {trace : List (σ × α × σ)} (h : M.Run s trace t) {e : σ × α × σ}
    (he : e ∈ trace) : M.Reachable e.1 ∧ M.step e.1 e.2.1 e.2.2 := by
  induction h with
  | start h => simp at he
  | @next t t' trace a h hs ih =>
    rcases List.mem_append.mp he with he | he
    · exact ih he
    · obtain rfl := List.mem_singleton.mp he
      exact ⟨⟨_, trace, h⟩, hs⟩

/-- The state after a list of actions, for a step that is a function. -/
def follow (f : σ → α → Option σ) (s : σ) (actions : List α) : Option σ := actions.foldlM f s

theorem ReachableBy.follow {C : σ → α → Prop} {f : σ → α → Option σ} (hstep : ∀ {s a t}, f s a = some t → M.step s a t)
    {s t : σ} {actions : List α} (h : M.ReachableBy C s) (hC : ∀ a ∈ actions, ∀ u, C u a)
    (hrun : Machine.follow f s actions = some t) : M.ReachableBy C t := by
  induction actions generalizing s with
  | nil =>
    cases hrun
    exact h
  | cons a actions ih =>
    simp only [Machine.follow, List.foldlM_cons, bind_eq_some] at hrun
    obtain ⟨u, hu, hrun⟩ := hrun
    exact ih (h.next (hC a List.mem_cons_self s) (hstep hu)) (fun b hb => hC b (List.mem_cons_of_mem a hb)) hrun

theorem Reachable.follow {f : σ → α → Option σ} (hstep : ∀ {s a t}, f s a = some t → M.step s a t) {s t : σ}
    {actions : List α} (h : M.Reachable s) (hrun : Machine.follow f s actions = some t) : M.Reachable t := by
  obtain ⟨s₀, trace, hr⟩ := h
  have hall : M.ReachableBy (fun _ _ => True) s := ⟨s₀, trace, hr, fun _ _ => trivial⟩
  exact (hall.follow hstep (fun _ _ _ => trivial) hrun).reachable

/-- The steps of a list of actions, for a step that always succeeds. -/
def steps (next : σ → α → σ) (s : σ) : List α → List (σ × α × σ)
  | [] => []
  | a :: rest => (s, a, next s a) :: steps next (next s a) rest

theorem of_mem_steps {next : σ → α → σ} {s : σ} {actions : List α} {e : σ × α × σ} (he : e ∈ steps next s actions) :
    e.2.1 ∈ actions ∧ e.2.2 = next e.1 e.2.1 := by
  induction actions generalizing s with
  | nil => cases he
  | cons a rest ih =>
    rcases List.mem_cons.mp he with rfl | he
    · exact ⟨List.mem_cons_self, rfl⟩
    · exact ⟨List.mem_cons_of_mem a (ih he).1, (ih he).2⟩

theorem Run.steps {next : σ → α → σ} {s t : σ} {trace : List (σ × α × σ)} {actions : List α} (h : M.Run s trace t)
    (hstep : ∀ e ∈ Machine.steps next t actions, M.step e.1 e.2.1 e.2.2) :
    M.Run s (trace ++ Machine.steps next t actions) (actions.foldl next t) := by
  induction actions generalizing trace t with
  | nil =>
    rw [Machine.steps, List.append_nil]
    exact h
  | cons a rest ih =>
    have hnext : M.step t a (next t a) := hstep _ List.mem_cons_self
    have hrest := ih (h.next hnext) fun e he => hstep e (List.mem_cons_of_mem _ he)
    rw [List.append_assoc] at hrest
    exact hrest

theorem mem_steps {next : σ → α → σ} (s : σ) (before : List α) (a : α) (after : List α) :
    (before.foldl next s, a, next (before.foldl next s) a) ∈ steps next s (before ++ a :: after) := by
  induction before generalizing s with
  | nil => exact List.mem_cons_self
  | cons b before ih => exact List.mem_cons_of_mem _ (ih (next s b))

/-- The states after any number of further steps. -/
def Later (M : Machine σ α) : σ → σ → Prop := Relation.ReflTransGen fun s t => ∃ a, M.step s a t

theorem Later.step {s t : σ} {a : α} (hs : M.step s a t) : M.Later s t := Relation.ReflTransGen.single ⟨a, hs⟩

/-- What every step of a run keeps holds between a state and the later ones. -/
theorem Reachable.later {R : σ → σ → Prop} (hrefl : ∀ s, R s s) (htrans : ∀ {s t u}, R s t → R t u → R s u)
    (hstep : ∀ {s a t}, M.Reachable s → M.step s a t → R s t) {s t : σ} (h : M.Reachable s) (hst : M.Later s t) :
    M.Reachable t ∧ R s t := by
  induction hst with
  | refl => exact ⟨h, hrefl s⟩
  | tail _ hs ih =>
    obtain ⟨a, hs⟩ := hs
    obtain ⟨hreach, hR⟩ := ih
    exact ⟨hreach.next hs, htrans hR (hstep hreach hs)⟩

/-! ### A record beside the state -/

section Recording

variable {γ : Type}

/-- The machine beside a record, rewritten after every step from the states around it. -/
def recording (M : Machine σ α) (start : γ) (record : σ → σ → γ → γ) : Machine (σ × γ) α where
  init w := M.init w.1 ∧ w.2 = start
  step w a w' := M.step w.1 a w'.1 ∧ w'.2 = record w.1 w'.1 w.2

variable {start : γ} {record : σ → σ → γ → γ}

/-- The invariant rule for a state and its record. -/
theorem ReachableBy.recording_invariant {C : σ × γ → α → Prop} {I : σ → γ → Prop} (hinit : ∀ s, M.init s → I s start)
    (hstep : ∀ s g a t, M.Reachable s → I s g → C (s, g) a → M.step s a t → I t (record s t g)) {s : σ} {g : γ}
    (h : (M.recording start record).ReachableBy C (s, g)) : M.Reachable s ∧ I s g := by
  refine h.invariant (I := fun w => M.Reachable w.1 ∧ I w.1 w.2) ?_ ?_
  · rintro ⟨s, g⟩ ⟨hs, rfl⟩
    exact ⟨.init hs, hinit s hs⟩
  · rintro ⟨s, g⟩ a ⟨t, g'⟩ - ⟨hreach, hI⟩ hC ⟨hs, hg⟩
    rw [show g' = record s t g from hg]
    exact ⟨hreach.next hs, hstep s g a t hreach hI hC hs⟩

end Recording

end Machine
end FireDash
