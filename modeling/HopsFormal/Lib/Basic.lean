import Mathlib.Data.List.Forall2
import Mathlib.Data.List.Induction

/-!
# Results and traces

Reading off a computation that may fail what each of its parts answered, and
reading off a trace, the list of steps taken, what happened since something
last ended it.
-/

namespace HopsFormal.Lib

open List

/-! ## Computations that may fail -/

/-- A chain of two succeeds exactly when both do. -/
theorem bind_ok {ε α β : Type} {result : Except ε α} {next : α → Except ε β} {value : β} :
    result.bind next = .ok value ↔ ∃ a, result = .ok a ∧ next a = .ok value := by
  cases result with
  | error e | ok a => simp [Except.bind]

/-- What each step that succeeds keeps holds where a run of such steps ends. -/
theorem foldlM_kept {σ α : Type} {step : σ → α → Option σ} {acts : List α} {P : σ → Prop}
    (kept : ∀ state, P state → ∀ act ∈ acts, ∀ next, step state act = some next → P next)
    {start last : σ} (initial : P start) (ran : acts.foldlM step start = some last) : P last := by
  induction acts generalizing start with
  | nil =>
    cases ran
    exact initial
  | cons act rest ih =>
    rw [foldlM_cons] at ran
    obtain ⟨next, first, others⟩ := Option.bind_eq_some_iff.mp ran
    refine ih (fun state holds later member => kept state holds later (.tail _ member)) ?_ others
    exact kept start initial act (.head _) next first

/-! ## Splits of a list -/

/-- A split of two lists put together is in the first or in the second. -/
theorem append_eq_append_cons {α : Type} {first second front back : List α} {entry : α}
    (split : first ++ second = front ++ entry :: back) :
    (∃ rest, first = front ++ entry :: rest ∧ back = rest ++ second) ∨
      ∃ gap, front = first ++ gap ∧ second = gap ++ entry :: back := by
  rcases append_eq_append_iff.mp split with ⟨gap, whole, inner⟩ | ⟨gap, whole, inner⟩
  · exact .inr ⟨gap, whole, inner⟩
  · cases gap with
    | nil => exact .inr ⟨[], by simpa using whole.symm, by simpa using inner.symm⟩
    | cons head rest =>
      obtain ⟨rfl, tail⟩ := List.cons.inj inner
      exact .inl ⟨rest, whole, tail⟩

theorem split_concat {α : Type} {items front back : List α} {last item : α}
    (split : items ++ [last] = front ++ item :: back) :
    (front = items ∧ item = last) ∨ ∃ rest, items = front ++ item :: rest := by
  rcases eq_nil_or_concat back with rfl | ⟨rest, final, rfl⟩
  · obtain ⟨rfl, same⟩ := append_inj' split rfl
    cases same
    exact .inl ⟨rfl, rfl⟩
  · rw [concat_eq_append, ← cons_append, ← append_assoc] at split
    exact .inr ⟨rest, (append_inj' split rfl).1⟩

/-- What is in a list is the element taken out of it or is left in it. -/
theorem eq_or_mem_eraseIdx {α : Type} {items : List α} {index : Nat} {taken item : α}
    (found : items[index]? = some taken) (member : item ∈ items) :
    item = taken ∨ item ∈ items.eraseIdx index := by
  obtain ⟨at', there⟩ := mem_iff_getElem?.mp member
  by_cases same : at' = index
  · subst same
    exact .inl (Option.some.inj (there.symm.trans found))
  · exact .inr (mem_eraseIdx_iff_getElem?.mpr ⟨at', same, there⟩)

/-- What is related to a list with a last element has a last element related to it. -/
theorem forall₂_concat {α β : Type} {R : α → β → Prop} {items : List α} {others : List β}
    {other : β} (each : Forall₂ R items (others ++ [other])) :
    ∃ front last, items = front ++ [last] ∧ Forall₂ R front others ∧ R last other := by
  have front := List.forall₂_take_append items others [other] each
  have back := List.forall₂_drop_append items others [other] each
  have whole := (take_append_drop others.length items).symm
  cases rest : items.drop others.length with
  | nil =>
    rw [rest] at back
    cases back
  | cons last more =>
    rw [rest] at back whole
    obtain ⟨related, nothing⟩ := List.forall₂_cons.mp back
    cases nothing
    exact ⟨_, last, whole, front, related⟩

/-! ## Traces -/

variable {α : Type*}

/-- Some step satisfies `P` and no step after it `ends` what it began. -/
def Since (ends : α → Prop) (P : List α → α → List α → Prop) (trace : List α) : Prop :=
  ∃ before x after, trace = before ++ x :: after ∧ (∀ y ∈ after, ¬ ends y) ∧ P before x after

namespace Since

variable {ends : α → Prop} {P Q : List α → α → List α → Prop} {trace : List α}

/-- The step just taken. -/
theorem last {y : α} (now : P trace y []) : Since ends P (trace ++ [y]) :=
  ⟨trace, y, [], rfl, by simp, now⟩

/-- A further step keeps what was, and may add to it. -/
theorem snoc_split (since : Since ends P trace) {y : α} (continues : ¬ ends y)
    (mono : ∀ before x after, trace = before ++ x :: after → P before x after →
      Q before x (after ++ [y])) : Since ends Q (trace ++ [y]) := by
  obtain ⟨before, x, after, rfl, none_ends, holds⟩ := since
  refine ⟨before, x, after ++ [y], by simp, ?_, mono before x after rfl holds⟩
  intro z member
  rcases mem_append.mp member with old | new
  · exact none_ends z old
  · rw [mem_singleton.mp new]
    exact continues

theorem snoc (since : Since ends P trace) {y : α} (continues : ¬ ends y)
    (mono : ∀ before x after, P before x after → Q before x (after ++ [y])) :
    Since ends Q (trace ++ [y]) :=
  since.snoc_split continues fun before x after _ => mono before x after

/-- What does not look at the later steps is kept as it is. -/
theorem snoc_same {R : List α → α → Prop} (since : Since ends (fun before x _ => R before x) trace)
    {y : α} (continues : ¬ ends y) : Since ends (fun before x _ => R before x) (trace ++ [y]) :=
  since.snoc continues fun _ _ _ holds => holds

/-- What holds since then holds by the step just taken, or held before it. -/
theorem of_snoc {R : List α → α → Prop} {y : α}
    (since : Since ends (fun before x _ => R before x) (trace ++ [y])) :
    R trace y ∨ ¬ ends y ∧ Since ends (fun before x _ => R before x) trace := by
  obtain ⟨before, x, after, split, none_ends, holds⟩ := since
  rcases eq_nil_or_concat after with rfl | ⟨rest, last, rfl⟩
  · obtain ⟨rfl, same⟩ := append_inj' split rfl
    cases same
    exact .inl holds
  · rw [concat_eq_append, ← cons_append, ← append_assoc] at split
    obtain ⟨rfl, same⟩ := append_inj' split rfl
    cases same
    exact .inr ⟨none_ends y (by simp), before, x, rest, rfl,
      fun z member => none_ends z (by simp [member]), holds⟩

end Since

/-- After the last step that `ends` them, the `events` happened one after the other. -/
def SinceLast (ends : α → Prop) (events : List (α → Prop)) (trace : List α) : Prop :=
  ∃ before after steps, trace = before ++ after ∧ (∀ y ∈ after, ¬ ends y) ∧
    steps.Sublist after ∧ Forall₂ (fun event step => event step) events steps

namespace SinceLast

variable {ends : α → Prop} {events : List (α → Prop)} {trace : List α} {y : α}

theorem nothing (ends : α → Prop) (trace : List α) : SinceLast ends [] trace :=
  ⟨trace, [], [], by simp, by simp, Sublist.refl _, .nil⟩

/-- A step that ends nothing leaves what happened. -/
theorem wait (since : SinceLast ends events trace) (continues : ¬ ends y) :
    SinceLast ends events (trace ++ [y]) := by
  obtain ⟨before, after, steps, rfl, none_ends, within, each⟩ := since
  refine ⟨before, after ++ [y], steps, by simp, ?_, within.trans (sublist_append_left ..),
    each⟩
  intro z member
  rcases mem_append.mp member with old | new
  · exact none_ends z old
  · rw [mem_singleton.mp new]
    exact continues

theorem next (since : SinceLast ends events trace) (continues : ¬ ends y) {event : α → Prop}
    (now : event y) : SinceLast ends (events ++ [event]) (trace ++ [y]) := by
  obtain ⟨before, after, steps, rfl, none_ends, within, each⟩ := since
  refine ⟨before, after ++ [y], steps ++ [y], by simp, ?_, within.append (Sublist.refl _),
    rel_append each (.cons now .nil)⟩
  intro z member
  rcases mem_append.mp member with old | new
  · exact none_ends z old
  · rw [mem_singleton.mp new]
    exact continues

end SinceLast

/-! ## Runs -/

section Runs

variable {σ : Type*} (step : σ → α → σ)

/-- The steps of a run, each with the state it was taken from. -/
@[grind =]
def trace : σ → List α → List (σ × α)
  | _, [] => []
  | state, act :: rest => (state, act) :: trace (step state act) rest

theorem trace_append (state : σ) (first rest : List α) :
    trace step state (first ++ rest) =
      trace step state first ++ trace step (first.foldl step state) rest := by
  induction first generalizing state with
  | nil => rfl
  | cons act first ih => simp [trace, ih]

variable {acts : List α} {past later : List (σ × α)}

theorem mem_trace {state : σ} {taken : σ × α} (member : taken ∈ trace step state acts) :
    taken.2 ∈ acts := by
  induction acts generalizing state with
  | nil => cases member
  | cons act rest ih =>
    rcases mem_cons.mp member with rfl | later
    · exact mem_cons_self
    · exact mem_cons_of_mem _ (ih later)

theorem trace_split {state : σ} {taken : σ × α}
    (split : trace step state acts = past ++ taken :: later) :
    ∃ before after, acts = before ++ taken.2 :: after ∧ past = trace step state before ∧
      taken.1 = before.foldl step state := by
  induction acts generalizing state past with
  | nil => simp [trace] at split
  | cons act rest ih =>
    cases past with
    | nil =>
      rw [trace, nil_append, List.cons.injEq] at split
      rw [← split.1]
      exact ⟨[], rest, rfl, rfl, rfl⟩
    | cons first past =>
      rw [trace, cons_append, List.cons.injEq] at split
      obtain ⟨rfl, split⟩ := split
      obtain ⟨before, after, rfl, rfl, same⟩ := ih split
      exact ⟨act :: before, after, rfl, rfl, same⟩

theorem trace_rest {state : σ} {taken : σ × α}
    (split : trace step state acts = past ++ taken :: later) :
    ∃ after, later = trace step (step taken.1 taken.2) after := by
  obtain ⟨before, after, rfl, rfl, same⟩ := trace_split step split
  rw [trace_append, trace, append_cancel_left_eq, List.cons.injEq] at split
  rw [same]
  exact ⟨after, split.2.symm⟩

theorem trace_turns {P : σ → Prop} {state : σ} {taken : σ × α} (before : P state)
    (after : ¬ P taken.1) (split : trace step state acts = past ++ taken :: later) :
    ∃ turn ∈ past, P turn.1 ∧ ¬ P (step turn.1 turn.2) := by
  induction acts generalizing state past with
  | nil => simp [trace] at split
  | cons act rest ih =>
    cases past with
    | nil =>
      rw [trace, nil_append, List.cons.injEq] at split
      rw [← split.1] at after
      exact absurd before after
    | cons first past =>
      rw [trace, cons_append, List.cons.injEq] at split
      obtain ⟨rfl, split⟩ := split
      by_cases holds : P (step state act)
      · obtain ⟨turn, within, turns⟩ := ih holds split
        exact ⟨turn, .tail _ within, turns⟩
      · exact ⟨(state, act), .head _, before, holds⟩

/-- What every step keeps, given the steps before it, holds wherever a run stands. -/
theorem trace_inv {Ok : σ × α → Prop} {Inv : List (σ × α) → σ → Prop}
    (kept : ∀ past state act, Inv past state → Ok (state, act) →
      Inv (past ++ [(state, act)]) (step state act)) {history : List (σ × α)} {state : σ}
    (begins : Inv history state) (ok : ∀ taken ∈ trace step state acts, Ok taken) {taken : σ × α}
    (split : trace step state acts = past ++ taken :: later) : Inv (history ++ past) taken.1 := by
  induction acts generalizing history state past with
  | nil => simp [trace] at split
  | cons act rest ih =>
    cases past with
    | nil =>
      rw [trace, nil_append, List.cons.injEq] at split
      rw [← split.1, append_nil]
      exact begins
    | cons first past =>
      rw [trace, cons_append, List.cons.injEq] at split
      obtain ⟨rfl, split⟩ := split
      have now := kept history state act begins (ok _ (by simp [trace]))
      have then_ := ih now (fun taken member => ok taken (by simp [trace, member])) split
      rwa [append_assoc] at then_

end Runs

end HopsFormal.Lib
