import Mathlib.Data.List.Basic

/-!
# Runs of a labelled transition function

A system is a partial step function on states and event labels; a step that
is not enabled returns `none`.  A run is guarded by a condition on the state
before each event.  Every safety result instantiates `GuardedRun.invariant`
with one preservation step.
-/

namespace LabelledRuns

variable {σ ε : Type*}

/-- A run from `start` through a list of events in which every event
satisfied the guard in the state where it was taken. -/
inductive GuardedRun (step : σ → ε → Option σ) (guard : σ → ε → Prop)
    (start : σ) : List ε → σ → Prop
  | nil : GuardedRun step guard start [] start
  | snoc {events : List ε} {state next : σ} {event : ε} :
      GuardedRun step guard start events state →
      guard state event →
      step state event = some next →
      GuardedRun step guard start (events ++ [event]) next

abbrev Run (step : σ → ε → Option σ) (start : σ) :
    List ε → σ → Prop :=
  GuardedRun step (fun _ _ => True) start

/-- An invariant of the guarded steps holds at the end of every guarded run. -/
theorem GuardedRun.invariant
    {step : σ → ε → Option σ} {guard : σ → ε → Prop} {Inv : σ → Prop}
    (hstep : ∀ state event next,
      Inv state → guard state event → step state event = some next →
        Inv next)
    {start state : σ} {events : List ε}
    (hstart : Inv start)
    (hrun : GuardedRun step guard start events state) :
    Inv state := by
  induction hrun with
  | nil => exact hstart
  | snoc _ hguard hnext ih => exact hstep _ _ _ ih hguard hnext

theorem GuardedRun.mono
    {step : σ → ε → Option σ} {guard weaker : σ → ε → Prop}
    (hweaker : ∀ state event, guard state event → weaker state event)
    {start state : σ} {events : List ε}
    (hrun : GuardedRun step guard start events state) :
    GuardedRun step weaker start events state := by
  induction hrun with
  | nil => exact .nil
  | snoc _ hguard hnext ih => exact ih.snoc (hweaker _ _ hguard) hnext

theorem GuardedRun.run
    {step : σ → ε → Option σ} {guard : σ → ε → Prop}
    {start state : σ} {events : List ε}
    (hrun : GuardedRun step guard start events state) :
    Run step start events state :=
  hrun.mono fun _ _ _ => trivial

/-- A run that breaks a stronger condition does so at a first event. -/
theorem GuardedRun.guarded_or_breaks
    {step : σ → ε → Option σ} {weaker : σ → ε → Prop}
    (guard : σ → ε → Prop) {start state : σ} {events : List ε}
    (hrun : GuardedRun step weaker start events state) :
    GuardedRun step guard start events state ∨
      ∃ before middle event next after,
        GuardedRun step guard start before middle ∧
          weaker middle event ∧ ¬ guard middle event ∧
          step middle event = some next ∧
          GuardedRun step weaker next after state := by
  induction hrun with
  | nil => exact Or.inl .nil
  | @snoc events middle next event _ hweaker hstep ih =>
      rcases ih with hguarded |
        ⟨before, first, broken, broke, after, hbefore, hw, hbreaks, hbroke,
          hafter⟩
      · by_cases hguard : guard middle event
        · exact Or.inl (hguarded.snoc hguard hstep)
        · exact Or.inr ⟨events, middle, event, next, [], hguarded, hweaker,
            hguard, hstep, .nil⟩
      · exact Or.inr ⟨before, first, broken, broke, after ++ [event], hbefore,
          hw, hbreaks, hbroke, hafter.snoc hweaker hstep⟩

theorem GuardedRun.of_snoc
    {step : σ → ε → Option σ} {guard : σ → ε → Prop}
    {start state : σ} {events : List ε} {event : ε}
    (hrun : GuardedRun step guard start (events ++ [event]) state) :
    ∃ middle, GuardedRun step guard start events middle ∧
      guard middle event ∧ step middle event = some state := by
  generalize hall : events ++ [event] = all at hrun
  cases hrun with
  | nil => simp at hall
  | @snoc _ middle _ _ hbefore hguard hstep =>
      obtain ⟨rfl, heq⟩ := List.append_inj' hall rfl
      cases heq
      exact ⟨middle, hbefore, hguard, hstep⟩

theorem GuardedRun.deterministic
    {step : σ → ε → Option σ} {guard other : σ → ε → Prop}
    {start state state' : σ} {events : List ε}
    (hrun : GuardedRun step guard start events state)
    (hrun' : GuardedRun step other start events state') :
    state = state' := by
  induction hrun generalizing state' with
  | nil =>
      generalize hnil : ([] : List ε) = none at hrun'
      cases hrun' with
      | nil => rfl
      | snoc => simp at hnil
  | snoc _ _ hstep ih =>
      obtain ⟨middle, hbefore, -, hstep'⟩ := hrun'.of_snoc
      rw [ih hbefore, hstep'] at hstep
      exact (Option.some.inj hstep).symm

theorem GuardedRun.snoc_iff
    {step : σ → ε → Option σ} {guard : σ → ε → Prop}
    {start middle next : σ} {events : List ε} {event : ε}
    (hrun : Run step start events middle)
    (hstep : step middle event = some next) :
    GuardedRun step guard start (events ++ [event]) next ↔
      GuardedRun step guard start events middle ∧ guard middle event := by
  constructor
  · intro hguarded
    obtain ⟨middle', hbefore, hguard, -⟩ := hguarded.of_snoc
    cases hbefore.deterministic hrun
    exact ⟨hbefore, hguard⟩
  · rintro ⟨hguarded, hguard⟩
    exact hguarded.snoc hguard hstep

/-- A guard on the events alone can be checked before the run. -/
theorem GuardedRun.iff_forall_mem
    {step : σ → ε → Option σ} {P : ε → Prop}
    {start state : σ} {events : List ε}
    (hrun : Run step start events state) :
    GuardedRun step (fun _ event => P event) start events state ↔
      ∀ event ∈ events, P event := by
  induction hrun with
  | nil => exact iff_of_true .nil (List.forall_mem_nil P)
  | snoc hbefore _ hstep ih =>
      rw [snoc_iff hbefore hstep, ih, List.forall_mem_append,
        List.forall_mem_singleton]

/-- A property that a step keeps exactly when it meets the guard. -/
theorem GuardedRun.iff_holds
    {step : σ → ε → Option σ} {guard : σ → ε → Prop} {P : σ → Prop}
    (hkeep : ∀ state event next, step state event = some next →
      (P next ↔ P state ∧ guard state event))
    {start state : σ} {events : List ε} (hstart : P start)
    (hrun : Run step start events state) :
    GuardedRun step guard start events state ↔ P state := by
  induction hrun with
  | nil => exact iff_of_true .nil hstart
  | snoc hbefore _ hstep ih =>
      rw [snoc_iff hbefore hstep, ih, hkeep _ _ _ hstep]

/-- What every step of a run does, with the states around it. -/
def EveryStep (step : σ → ε → Option σ) (Good : σ → ε → σ → Prop)
    (start : σ) (events : List ε) : Prop :=
  ∀ before event middle next, before ++ [event] <+: events →
    Run step start before middle → step middle event = some next →
      Good middle event next

theorem EveryStep.snoc_iff {step : σ → ε → Option σ}
    {Good : σ → ε → σ → Prop} {start middle next : σ} {events : List ε}
    {event : ε} (hrun : Run step start events middle)
    (hstep : step middle event = some next) :
    EveryStep step Good start (events ++ [event]) ↔
      EveryStep step Good start events ∧ Good middle event next := by
  constructor
  · intro hevery
    refine ⟨fun before first state after hbegin => ?_, ?_⟩
    · exact hevery before first state after
        (hbegin.trans (List.prefix_append _ _))
    · exact hevery events event middle next (List.prefix_refl _) hrun hstep
  · rintro ⟨hevery, hgood⟩ before first state after hbegin hbefore hafter
    rcases List.prefix_concat_iff.mp hbegin with heq | hbegin
    · obtain ⟨rfl, hsame⟩ := List.append_inj' heq rfl
      cases hsame
      cases hbefore.deterministic hrun
      rw [hstep] at hafter
      cases hafter
      exact hgood
    · exact hevery before first state after hbegin hbefore hafter

/-- Where the guard says of every step from a state of the invariant whether
it is good, it says so of every run. -/
theorem GuardedRun.iff_everyStep
    {step : σ → ε → Option σ} {guard : σ → ε → Prop}
    {Good : σ → ε → σ → Prop} {Inv : σ → Prop}
    (hkeep : ∀ state event next,
      Inv state → guard state event → step state event = some next →
        Inv next)
    (hgood : ∀ state event next,
      Inv state → step state event = some next →
        (Good state event next ↔ guard state event))
    {start state : σ} {events : List ε} (hstart : Inv start)
    (hrun : Run step start events state) :
    GuardedRun step guard start events state ↔
      EveryStep step Good start events := by
  induction hrun with
  | nil =>
      refine iff_of_true .nil ?_
      intro before event middle next hbegin
      simp at hbegin
  | @snoc events middle next event hbefore _ hstep ih =>
      rw [EveryStep.snoc_iff hbefore hstep, ← ih, snoc_iff hbefore hstep]
      refine and_congr_right fun hguarded => ?_
      have hinv := GuardedRun.invariant hkeep hstart hguarded
      exact (hgood _ _ _ hinv hstep).symm

/-- Executing a list of events, stopping at the first event that is not
enabled or breaks the guard. -/
def exec (step : σ → ε → Option σ) (guard : σ → ε → Prop)
    [∀ state event, Decidable (guard state event)] (start : σ)
    (events : List ε) : Option σ :=
  events.foldlM
    (fun state event => if guard state event then step state event else none)
    start

theorem GuardedRun.cons
    {step : σ → ε → Option σ} {guard : σ → ε → Prop}
    {start middle state : σ} {event : ε} {events : List ε}
    (hguard : guard start event) (hnext : step start event = some middle)
    (hrun : GuardedRun step guard middle events state) :
    GuardedRun step guard start (event :: events) state := by
  induction hrun with
  | nil =>
      have hone : GuardedRun step guard start ([] ++ [event]) middle :=
        .snoc .nil hguard hnext
      exact hone
  | snoc _ hlast hstep ih =>
      rw [← List.cons_append]
      exact ih.snoc hlast hstep

/-- Some run leads to a state with the property. -/
def Reaches (step : σ → ε → Option σ) (P : σ → Prop) (start : σ) : Prop :=
  ∃ events state, Run step start events state ∧ P state

theorem Reaches.now {step : σ → ε → Option σ} {P : σ → Prop} {start : σ}
    (hstart : P start) : Reaches step P start :=
  ⟨[], start, .nil, hstart⟩

theorem Reaches.after {step : σ → ε → Option σ} {P : σ → Prop}
    {start middle : σ} (event : ε) (hnext : step start event = some middle)
    (hmiddle : Reaches step P middle) : Reaches step P start := by
  obtain ⟨events, state, hrun, hstate⟩ := hmiddle
  exact ⟨event :: events, state, hrun.cons trivial hnext, hstate⟩

/-- Where the invariant of the guarded steps gives a property that the first
unguarded step leads to break, a guarded run has the property up to such a
step. -/
theorem GuardedRun.until_unguarded
    {step : σ → ε → Option σ} {guard : σ → ε → Prop} {Inv P : σ → Prop}
    (hkeep : ∀ state event next,
      Inv state → guard state event → step state event = some next →
        Inv next)
    (hholds : ∀ state, Inv state → P state)
    (hbreaks : ∀ state event next,
      Inv state → ¬ guard state event → step state event = some next →
        Reaches step (fun u => ¬ P u) next)
    {start state : σ} {events : List ε} (hstart : Inv start)
    (hrun : GuardedRun step guard start events state) :
    P state ∧
      ∀ event next, step state event = some next → ¬ guard state event →
        Reaches step (fun u => ¬ P u) next := by
  have hstate := hrun.invariant hkeep hstart
  exact ⟨hholds state hstate, fun event next hstep hunguarded =>
    hbreaks state event next hstate hunguarded hstep⟩

theorem GuardedRun.of_exec
    {step : σ → ε → Option σ} {guard : σ → ε → Prop}
    [∀ state event, Decidable (guard state event)]
    {start state : σ} {events : List ε}
    (hexec : exec step guard start events = some state) :
    GuardedRun step guard start events state := by
  induction events generalizing start with
  | nil =>
      simp only [exec, List.foldlM_nil, Option.pure_def,
        Option.some.injEq] at hexec
      subst hexec
      exact .nil
  | cons event events ih =>
      simp only [exec, List.foldlM_cons, Option.bind_eq_bind,
        Option.bind_eq_some_iff] at hexec
      obtain ⟨middle, hfirst, hrest⟩ := hexec
      split at hfirst
      next hguard => exact GuardedRun.cons hguard hfirst (ih hrest)
      next => contradiction

theorem GuardedRun.of_exec_isSome
    {step : σ → ε → Option σ} {guard : σ → ε → Prop}
    [∀ state event, Decidable (guard state event)]
    {start : σ} {events : List ε}
    (hexec : (exec step guard start events).isSome) :
    ∃ state, GuardedRun step guard start events state := by
  obtain ⟨state, hstate⟩ := Option.isSome_iff_exists.mp hexec
  exact ⟨state, .of_exec hstate⟩

/-- A run, and what executing it shows of the state it reaches. -/
theorem GuardedRun.of_exec_map {α : Type*}
    {step : σ → ε → Option σ} {guard : σ → ε → Prop}
    [∀ state event, Decidable (guard state event)]
    {start : σ} {events : List ε} {view : σ → α} {shown : α}
    (hexec : (exec step guard start events).map view = some shown) :
    ∃ state, GuardedRun step guard start events state ∧
      view state = shown := by
  obtain ⟨state, hstate, hview⟩ := Option.map_eq_some_iff.mp hexec
  exact ⟨state, .of_exec hstate, hview⟩

end LabelledRuns
