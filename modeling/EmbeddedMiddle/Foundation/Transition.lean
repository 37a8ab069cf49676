import Mathlib.Logic.Function.Basic

/-!
# Runs of labelled transition relations

A component is given by what one step may do to its state.  A run is a finite
sequence of steps together with the labels (calls and results) it shows.  The
rules below lift one-step facts to facts about every run.
-/

namespace Foundation

universe u v w x y

/-- The states reached from `start`, with the labels of the steps in order. -/
inductive Run {State : Type u} {Label : Type v}
    (step : State → Label → State → Prop) (start : State) :
    List Label → State → Prop where
  | nil : Run step start [] start
  | snoc {labels : List Label} {before after : State} {label : Label} :
      Run step start labels before →
      step before label after →
      Run step start (labels ++ [label]) after

namespace Run

variable {State : Type u} {Label : Type v}
  {step : State → Label → State → Prop} {start final : State}
  {labels : List Label}

theorem cons {next : State} {label : Label}
    (taken : step start label next) (run : Run step next labels final) :
    Run step start (label :: labels) final := by
  induction run with
  | nil => exact .snoc .nil taken
  | snoc _ last induction => exact .snoc induction last

/-- A property of history and state that holds at the start and survives every
step holds after every run. -/
theorem history_invariant
    (run : Run step start labels final)
    (property : List Label → State → Prop)
    (initially : property [] start)
    (preserved : ∀ labels before label after,
      property labels before → step before label after →
        property (labels ++ [label]) after) :
    property labels final := by
  induction run with
  | nil => exact initially
  | snoc _ taken induction => exact preserved _ _ _ _ induction taken

theorem invariant
    (run : Run step start labels final)
    (property : State → Prop)
    (initially : property start)
    (preserved : ∀ before label after,
      property before → step before label after → property after) :
    property final := by
  induction run with
  | nil => exact initially
  | snoc _ taken induction => exact preserved _ _ _ induction taken

/-- Forward simulation: when every concrete step is matched by an abstract
step with the same label, every concrete run is matched by an abstract run. -/
theorem simulate
    {Abstract : Type w}
    {abstractStep : Abstract → Label → Abstract → Prop}
    {abstractStart : Abstract}
    (run : Run step start labels final)
    (related : State → Abstract → Prop)
    (initially : related start abstractStart)
    (matched : ∀ before abstractBefore label after,
      related before abstractBefore → step before label after →
        ∃ abstractAfter,
          abstractStep abstractBefore label abstractAfter ∧
            related after abstractAfter) :
    ∃ abstractFinal,
      Run abstractStep abstractStart labels abstractFinal ∧
        related final abstractFinal := by
  induction run with
  | nil => exact ⟨abstractStart, .nil, initially⟩
  | snoc _ taken induction =>
      obtain ⟨abstractBefore, abstractRun, relatedBefore⟩ := induction
      obtain ⟨abstractAfter, abstractTaken, relatedAfter⟩ :=
        matched _ _ _ _ relatedBefore taken
      exact ⟨abstractAfter, .snoc abstractRun abstractTaken, relatedAfter⟩

theorem append {middle : State} {more : List Label}
    (earlier : Run step start labels middle)
    (later : Run step middle more final) :
    Run step start (labels ++ more) final := by
  induction later with
  | nil => rwa [List.append_nil]
  | snoc _ taken induction =>
      rw [← List.append_assoc]
      exact .snoc induction taken

/-- Forward simulation with steps of different size: what a concrete step
shows are the labels of a run of abstract steps. -/
theorem refine
    {Abstract : Type w} {AbstractLabel : Type x}
    {abstractStep : Abstract → AbstractLabel → Abstract → Prop}
    {abstractStart : Abstract}
    (run : Run step start labels final)
    (shows : Label → List AbstractLabel)
    (related : State → Abstract → Prop)
    (initially : related start abstractStart)
    (matched : ∀ before abstractBefore label after,
      related before abstractBefore → step before label after →
        ∃ abstractAfter,
          Run abstractStep abstractBefore (shows label) abstractAfter ∧
            related after abstractAfter) :
    ∃ abstractFinal,
      Run abstractStep abstractStart (labels.flatMap shows) abstractFinal ∧
        related final abstractFinal := by
  induction run with
  | nil => exact ⟨abstractStart, .nil, initially⟩
  | snoc _ taken induction =>
      obtain ⟨abstractBefore, abstractRun, relatedBefore⟩ := induction
      obtain ⟨abstractAfter, abstractTaken, relatedAfter⟩ :=
        matched _ _ _ _ relatedBefore taken
      rw [List.flatMap_append, List.flatMap_singleton]
      exact ⟨abstractAfter, abstractRun.append abstractTaken, relatedAfter⟩

/-- When each step of a component is, under a map of its states and labels, a
step of another one, so is each of its runs. -/
theorem translate
    {Other : Type w} {OtherLabel : Type x}
    {otherStep : Other → OtherLabel → Other → Prop}
    (image : State → Other) (relabel : Label → OtherLabel)
    (property : State → Prop)
    (initially : property start)
    (preserved : ∀ before label after,
      property before → step before label after → property after)
    (matched : ∀ before label after,
      property before → step before label after →
        otherStep (image before) (relabel label) (image after))
    (run : Run step start labels final) :
    Run otherStep (image start) (labels.map relabel) (image final) := by
  induction run with
  | nil => exact .nil
  | snoc earlier taken induction =>
      have holds := earlier.invariant property initially preserved
      rw [List.map_append]
      exact .snoc induction (matched _ _ _ holds taken)

/-- When each step that the other component can take from an image comes from
a step, so does each of its runs. -/
theorem reflect
    {Other : Type w} {OtherLabel : Type x}
    {otherStep : Other → OtherLabel → Other → Prop}
    (image : State → Other) (relabel : Label → OtherLabel)
    (property : State → Prop)
    (initially : property start)
    (preserved : ∀ before label after,
      property before → step before label after → property after)
    (found : ∀ before otherLabel otherAfter,
      property before → otherStep (image before) otherLabel otherAfter →
        ∃ label after, step before label after ∧
          relabel label = otherLabel ∧ image after = otherAfter)
    {otherLabels : List OtherLabel} {otherFinal : Other}
    (run : Run otherStep (image start) otherLabels otherFinal) :
    ∃ labels final, Run step start labels final ∧
      labels.map relabel = otherLabels ∧ image final = otherFinal := by
  induction run with
  | nil => exact ⟨[], start, .nil, rfl, rfl⟩
  | snoc _ taken induction =>
      obtain ⟨labels, before, earlier, rfl, rfl⟩ := induction
      have holds := earlier.invariant property initially preserved
      obtain ⟨label, after, step, rfl, rfl⟩ := found _ _ _ holds taken
      refine ⟨labels ++ [label], after, .snoc earlier step, ?_, rfl⟩
      rw [List.map_append]
      rfl

end Run

/-- Steps taken only where `guard` allows the label. -/
def Guarded {State : Type u} {Label : Type v}
    (guard : State → Label → Prop) (step : State → Label → State → Prop) :
    State → Label → State → Prop :=
  fun before label after => guard before label ∧ step before label after

/-- Steps of which `good` can be said. -/
def Upholding {State : Type u} {Label : Type v}
    (good step : State → Label → State → Prop) :
    State → Label → State → Prop :=
  fun before label after => good before label after ∧ step before label after

/-- Where the guarded steps are good and keep an invariant, a guarded run is one
of good steps. -/
theorem Run.upholding {State : Type u} {Label : Type v}
    {guard : State → Label → Prop}
    {good step : State → Label → State → Prop}
    {start final : State} {labels : List Label}
    (run : Run (Guarded guard step) start labels final)
    (property : State → Prop)
    (initially : property start)
    (preserved : ∀ before label after,
      property before → Guarded guard step before label after →
        good before label after ∧ property after) :
    Run (Upholding good step) start labels final := by
  induction run with
  | nil => exact .nil
  | snoc earlier taken induction =>
      have holds := earlier.invariant property initially
        (fun before label after holds taken =>
          (preserved before label after holds taken).2)
      exact .snoc induction ⟨(preserved _ _ _ holds taken).1, taken.2⟩

/-- When the guard decides, in the states that guarded runs reach, which steps
are good, the guarded runs are those in which every step is good. -/
theorem Run.upholding_iff {State : Type u} {Label : Type v}
    {guard : State → Label → Prop}
    {good step : State → Label → State → Prop}
    {start final : State} {labels : List Label}
    (property : State → Prop)
    (initially : property start)
    (preserved : ∀ before label after,
      property before → Guarded guard step before label after →
        property after)
    (decides : ∀ before label after,
      property before → step before label after →
        (good before label after ↔ guard before label)) :
    Run (Upholding good step) start labels final ↔
      Run (Guarded guard step) start labels final := by
  constructor
  · intro run
    suffices both : Run (Guarded guard step) start labels final ∧
        property final from both.1
    induction run with
    | nil => exact ⟨.nil, initially⟩
    | snoc _ taken induction =>
        obtain ⟨guarded, holds⟩ := induction
        have allowed := (decides _ _ _ holds taken.2).mp taken.1
        exact ⟨.snoc guarded ⟨allowed, taken.2⟩,
          preserved _ _ _ holds ⟨allowed, taken.2⟩⟩
  · intro run
    induction run with
    | nil => exact .nil
    | snoc earlier taken induction =>
        have holds := earlier.invariant property initially preserved
        exact .snoc induction
          ⟨(decides _ _ _ holds taken.2).mpr taken.1, taken.2⟩

/-! ## Updates -/

/-- A value that an updated function takes was written or was there before. -/
theorem update_eq_cases {Index : Type u} {Value : Type v}
    [DecidableEq Index] {function : Index → Value} {index other : Index}
    {new found : Value}
    (there : Function.update function index new other = found) :
    (other = index ∧ new = found) ∨
      (other ≠ index ∧ function other = found) := by
  by_cases same : other = index
  · rw [same, Function.update_self] at there
    exact .inl ⟨same, there⟩
  · rw [Function.update_of_ne same] at there
    exact .inr ⟨same, there⟩

end Foundation
